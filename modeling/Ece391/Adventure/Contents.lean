/-
# Ece391.Adventure.Contents — the contents lists stay well formed.

`build_world` leaves a sound world, and every action has an outcome, which is sound again and ready for the
player's next one.  So the lists are in order in every state of every game, and every action has a result: no
loop spins and no NULL pointer is followed.
-/
import Ece391.Adventure.Outcome
import Ece391.Lib.Transition

open Ece391.Lib

namespace Ece391.Adventure

/-! ## The built world -/

/-- No exit of the data leads to the inventory, and every room, object and swap photo is described. -/
theorem roomData_exits : ∀ d ∈ roomData,
    d.left ≠ some .inventory ∧ d.enter ≠ some .inventory ∧ d.right ≠ some .inventory := by
  decide

theorem mem_roomData (r : RoomId) : r ∈ roomData.map RoomData.id := by
  cases r <;> decide

theorem mem_swapData (s : SwapId) : s ∈ swapData.map SwapData.id := by
  cases s <;> decide

section Build

variable {readPhoto : String → Option Photo} {readObjImage : String → Option Image}
  {rand : ObjId → Nat → Nat}

/-- A room as `build_world` sets it up, or still cleared. -/
structure Room.Fresh (b : Room) : Prop where
  contents : b.contents = none
  left : b.left ≠ some .inventory
  enter : b.enter ≠ some .inventory
  right : b.right ≠ some .inventory

/-- What holds of the cleared rooms and of each room as the data describes it holds of all rooms. -/
theorem buildRooms_spec {P : RoomId → Room → Prop} {ds : List RoomData} {w w' : World}
    (hds : ∀ d ∈ ds, ∀ view, P d.id ⟨some d.name, some view, none, d.left, d.enter, d.right⟩)
    (hw : ∀ r, P r (w.room r)) (h : buildRooms readPhoto ds w = .ok w') :
    (∀ r, P r (w'.room r)) ∧ w'.object = w.object ∧ w'.flags = w.flags ∧
    ∀ r, (w.room r).view ≠ none ∨ r ∈ ds.map RoomData.id → (w'.room r).view ≠ none := by
  induction ds generalizing w with
  | nil =>
      cases h
      refine ⟨hw, rfl, rfl, fun r hr => ?_⟩
      rcases hr with hr | hr
      · exact hr
      · cases hr
  | cons d ds ih =>
      unfold buildRooms at h
      split at h
      · cases h
      next =>
        split at h
        · cases h
        next view _ =>
          have hset : ∀ r, P r ((w.setRoom d.id fun _ =>
              ⟨some d.name, some view, none, d.left, d.enter, d.right⟩).room r) := by
            intro r
            by_cases hd : r = d.id
            · subst hd
              rw [setRoom_room_self]
              exact hds d List.mem_cons_self view
            · rw [setRoom_room_of_ne _ _ _ _ hd]
              exact hw r
          obtain ⟨hrooms, hobject, hflags, hview⟩ :=
            ih (fun d' hd' => hds d' (List.mem_cons_of_mem d hd')) hset h
          refine ⟨hrooms, hobject, hflags, fun r hr => hview r ?_⟩
          by_cases hd : r = d.id
          · subst hd
            rw [setRoom_room_self]
            exact Or.inl nofun
          · rw [setRoom_room_of_ne _ _ _ _ hd]
            rcases hr with hr | hr
            · exact Or.inl hr
            · exact Or.inr ((List.mem_cons.mp hr).resolve_left hd)

/-- While the objects are set up, one without a name is nowhere. -/
def World.Unnamed (w : World) : Prop := ∀ o, (w.object o).name = none → w.loc o = none

/-- Setting up an object that is nowhere leaves the lists alone. -/
theorem setUp_listed {w : World} (h : w.Listed) {o : ObjId} (ho : w.loc o = none) (name : String)
    (img : Image) : (w.setObject o fun _ => ⟨some name, none, none, 0, 0, some img⟩).Listed ∧
    (w.setObject o fun _ => ⟨some name, none, none, 0, 0, some img⟩).loc = w.loc := by
  have hloc : (w.setObject o fun _ => ⟨some name, none, none, 0, 0, some img⟩).loc = w.loc := by
    funext o'
    by_cases ho' : o' = o
    · subst ho'
      simp [World.loc] at ho ⊢
      exact ho.symm
    · simp [World.loc, setObject_object_of_ne _ _ _ _ ho']
  refine ⟨fun r => ?_, hloc⟩
  obtain ⟨l, hchain, hnd, hmem⟩ := h r
  refine ⟨l, hchain.congr fun o' ho' => ?_, hnd, fun o' => by rw [hloc, hmem]⟩
  have hne : o' ≠ o := by
    rintro rfl
    rw [hmem, ho] at ho'
    cases ho'
  simp [World.next, setObject_object_of_ne _ _ _ _ hne]

theorem placeObject_spec {w : World} (rand : ObjId → Nat → Nat) (h : w.Listed) (d : ObjData)
    (hloc : w.loc d.id = none) (hview : ∀ r, (w.room r).view ≠ none)
    (himg : (w.object d.id).img ≠ none) :
    ∃ w', w.placeObject rand d = some w' ∧ Moves w d.id d.room w' := by
  unfold World.placeObject
  cases d.room with
  | none => exact ⟨w, rfl, .refl w, h, by rw [← hloc, Function.update_eq_self]⟩
  | some r =>
      dsimp only
      split
      · exact h.insertObjectAt d.id r d.x d.y
      · exact h.insertObject d.id r (rand d.id) (hview r) himg

/-- **`Furnished ds w w'`** — the objects `ds` are set up and placed, and the rooms are as they were. -/
structure Furnished (ds : List ObjData) (w w' : World) : Prop where
  listed : w'.Listed
  left : ∀ r, (w'.room r).left = (w.room r).left
  enter : ∀ r, (w'.room r).enter = (w.room r).enter
  right : ∀ r, (w'.room r).right = (w.room r).right
  view : ∀ r, (w'.room r).view = (w.room r).view
  swapPhoto : w'.swapPhoto = w.swapPhoto
  flags : w'.flags = w.flags
  loc : w'.loc = ds.foldl (fun loc d => Function.update loc d.id d.room) w.loc
  names : w'.names = ds.foldl (fun (names : ObjId → Option String) d =>
    Function.update names d.id (some d.name)) w.names
  img : ∀ o, (w.object o).img ≠ none ∨ o ∈ ds.map ObjData.id → (w'.object o).img ≠ none

theorem buildObjects_spec {ds : List ObjData} {w w' : World} (hlisted : w.Listed) (hunnamed : w.Unnamed)
    (hview : ∀ r, (w.room r).view ≠ none) (h : buildObjects readObjImage rand ds w = some (.ok w')) :
    Furnished ds w w' := by
  induction ds generalizing w with
  | nil =>
      cases h
      exact ⟨hlisted, fun _ => rfl, fun _ => rfl, fun _ => rfl, fun _ => rfl, rfl, rfl, rfl, rfl,
        fun o ho => ho.resolve_right nofun⟩
  | cons d ds ih =>
      unfold buildObjects at h
      split at h
      · cases h
      next hname =>
        split at h
        · cases h
        next img _ =>
          -- the object is set up, placed, and the loop goes on
          obtain ⟨w1, hw1⟩ : ∃ w1, w1 = w.setObject d.id fun _ =>
              ⟨some d.name, none, none, 0, 0, some img⟩ := ⟨_, rfl⟩
          have hlimbo : w.loc d.id = none := hunnamed _ (not_not.mp hname)
          obtain ⟨hlisted1, hloc1⟩ := setUp_listed hlisted hlimbo d.name img
          rw [← hw1] at h hlisted1 hloc1
          have hself : w1.object d.id = ⟨some d.name, none, none, 0, 0, some img⟩ := by
            rw [hw1, setObject_object_self]
          have hother : ∀ o, o ≠ d.id → w1.object o = w.object o := fun o ho => by
            rw [hw1, setObject_object_of_ne _ _ _ _ ho]
          have hroom1 : w1.room = w.room := by rw [hw1, setObject_room]
          have hnames1 : w1.names = Function.update w.names d.id (some d.name) := by
            funext o
            by_cases ho : o = d.id
            · subst ho
              rw [World.names, hself, Function.update_self]
            · rw [World.names, hother o ho, Function.update_of_ne ho, World.names]
          obtain ⟨w2, hw2, hm⟩ := placeObject_spec rand hlisted1 d (by rw [hloc1, hlimbo])
            (by rw [hroom1]; exact hview) (by rw [hself]; exact nofun)
          rw [hw2, Option.bind_some] at h
          have hunnamed2 : w2.Unnamed := by
            intro o ho
            rw [hm.name] at ho
            have hne : o ≠ d.id := by
              rintro rfl
              rw [hself] at ho
              cases ho
            rw [hother o hne] at ho
            rw [hm.loc, Function.update_of_ne hne, hloc1]
            exact hunnamed o ho
          have hrest := ih hm.listed hunnamed2 (fun r => by rw [hm.view, hroom1]; exact hview r) h
          exact
            { listed := hrest.listed
              left := fun r => by rw [hrest.left, hm.left, hroom1]
              enter := fun r => by rw [hrest.enter, hm.enter, hroom1]
              right := fun r => by rw [hrest.right, hm.right, hroom1]
              view := fun r => by rw [hrest.view, hm.view, hroom1]
              swapPhoto := by rw [hrest.swapPhoto, hm.swapPhoto, hw1]; rfl
              flags := by rw [hrest.flags, hm.flags, hw1]; rfl
              loc := by rw [hrest.loc, hm.loc, hloc1, List.foldl_cons]
              names := by
                have hnames2 : w2.names = w1.names := funext hm.name
                rw [hrest.names, hnames2, hnames1, List.foldl_cons]
              img := fun o ho => hrest.img o (by
                rw [hm.img]
                by_cases hd : o = d.id
                · subst hd
                  rw [hself]
                  exact Or.inl nofun
                · rw [hother o hd]
                  exact ho.imp_right fun ho => (List.mem_cons.mp ho).resolve_left hd) }

theorem buildSwaps_spec {ds : List SwapData} {w w' : World} (h : buildSwaps readPhoto ds w = .ok w') :
    w'.room = w.room ∧ w'.object = w.object ∧ w'.flags = w.flags ∧
    ∀ s, w.swapPhoto s ≠ none ∨ s ∈ ds.map SwapData.id → w'.swapPhoto s ≠ none := by
  induction ds generalizing w with
  | nil =>
      cases h
      refine ⟨rfl, rfl, rfl, fun s hs => ?_⟩
      rcases hs with hs | hs
      · exact hs
      · cases hs
  | cons d ds ih =>
      unfold buildSwaps at h
      split at h
      · cases h
      next =>
        split at h
        · cases h
        next view _ =>
          obtain ⟨hroom, hobject, hflags, hswap⟩ := ih h
          refine ⟨hroom, hobject, hflags, fun s hs => hswap s ?_⟩
          by_cases hd : s = d.id
          · subst hd
            exact Or.inl (by simp)
          · rcases hs with hs | hs
            · exact Or.inl (by simpa [hd] using hs)
            · exact Or.inr ((List.mem_cons.mp hs).resolve_left hd)

/-- The three loops of `build_world`. -/
theorem build_loops {w : World} (h : buildWorld readPhoto readObjImage rand = some (.ok w)) :
    ∃ w1 w2, buildRooms readPhoto roomData .zero = .ok w1 ∧
      buildObjects readObjImage rand objData w1 = some (.ok w2) ∧
      buildSwaps readPhoto swapData w2 = .ok w := by
  unfold buildWorld at h
  split at h
  · cases h
  next w1 h1 =>
    split at h
    · cases h
    · cases h
    next w2 h2 => exact ⟨w1, w2, h1, h2, Option.some.inj h⟩

/-- **`Built P w`** — what `build_world` leaves: sound, with the objects where the data puts them, no
flag set, and rooms that are as the data describes them. -/
structure Built (P : RoomId → Room → Prop) (w : World) : Prop extends Sound w where
  flags : w.flags = fun _ => false
  loc : w.loc = objData.foldl (fun loc d => Function.update loc d.id d.room) fun _ => none
  rooms : ∀ r, ∃ b, P r b ∧ (w.room r).left = b.left ∧ (w.room r).enter = b.enter ∧
    (w.room r).right = b.right

/-- The rooms after the first loop. -/
theorem buildRooms_fresh {w1 : World} (h1 : buildRooms readPhoto roomData .zero = .ok w1) :
    (∀ r, (w1.room r).Fresh) ∧ (∀ r, (w1.room r).view ≠ none) ∧ w1.object = World.zero.object ∧
      w1.flags = World.zero.flags := by
  have hzero : ∀ r, (World.zero.room r).Fresh := fun r => ⟨rfl, nofun, nofun, nofun⟩
  obtain ⟨hrooms, hobject, hflags, hview⟩ := buildRooms_spec (P := fun _ b => b.Fresh)
    (fun d hd _ => by
      obtain ⟨hleft, henter, hright⟩ := roomData_exits d hd
      exact ⟨rfl, hleft, henter, hright⟩) hzero h1
  exact ⟨hrooms, fun r => hview r (Or.inr (mem_roomData r)), hobject, hflags⟩

/-- The objects after the second. -/
theorem furnished_of_build {w1 w2 : World} (h1 : buildRooms readPhoto roomData .zero = .ok w1)
    (h2 : buildObjects readObjImage rand objData w1 = some (.ok w2)) : Furnished objData w1 w2 := by
  obtain ⟨hfresh, hview, hobject, -⟩ := buildRooms_fresh h1
  have hloc : ∀ o, w1.loc o = none := fun o => by
    rw [World.loc, hobject]
    rfl
  refine buildObjects_spec (fun r => ⟨[], (hfresh r).contents, List.nodup_nil, fun o => ?_⟩)
    (fun o _ => hloc o) hview h2
  simp [hloc]

/-- **The built world is sound**, and its rooms are those of any property the data has. -/
theorem built_of_build {P : RoomId → Room → Prop} {w : World}
    (hdata : ∀ d ∈ roomData, ∀ view,
      P d.id ⟨some d.name, some view, none, d.left, d.enter, d.right⟩)
    (hzero : ∀ r, P r (World.zero.room r))
    (h : buildWorld readPhoto readObjImage rand = some (.ok w)) : Built P w := by
  obtain ⟨w1, w2, h1, h2, h3⟩ := build_loops h
  obtain ⟨hfresh, hview, hobject, hflags⟩ := buildRooms_fresh h1
  have hrooms := (buildRooms_spec hdata hzero h1).1
  have h2 := furnished_of_build h1 h2
  obtain ⟨hroom3, hobject3, hflags3, hswaps⟩ := buildSwaps_spec h3
  have hcontents : w.contents = w2.contents := by
    funext r
    rw [World.contents, hroom3]
    rfl
  have hnext : w.next = w2.next := by
    funext o
    rw [World.next, hobject3]
    rfl
  have hloc : w.loc = w2.loc := by
    funext o
    rw [World.loc, hobject3]
    rfl
  have hloc1 : w1.loc = fun _ => none := by
    funext o
    rw [World.loc, hobject]
    rfl
  refine ⟨⟨?_, fun r => ?_, fun r => ?_, fun r => ?_, fun r => ?_, fun o => ?_, fun s => ?_⟩, ?_, ?_,
    fun r => ⟨_, hrooms r, ?_, ?_, ?_⟩⟩
  · rw [World.Listed, hcontents, hnext, hloc]
    exact h2.listed
  · rw [hroom3, h2.left]
    exact (hfresh r).left
  · rw [hroom3, h2.enter]
    exact (hfresh r).enter
  · rw [hroom3, h2.right]
    exact (hfresh r).right
  · rw [hroom3, h2.view]
    exact hview r
  · rw [hobject3]
    exact h2.img o (Or.inr (mem_objData o))
  · exact hswaps s (Or.inr (mem_swapData s))
  · rw [hflags3, h2.flags, hflags]
    rfl
  · rw [hloc, h2.loc, hloc1]
  · rw [hroom3, h2.left]
  · rw [hroom3, h2.enter]
  · rw [hroom3, h2.right]

theorem sound_of_build {w : World} (h : buildWorld readPhoto readObjImage rand = some (.ok w)) :
    Sound w :=
  (built_of_build (P := fun _ _ => True) (fun _ _ _ => trivial) (fun _ => trivial) h).toSound

end Build

/-! ## Whole games -/

/-- What holds between two actions. -/
def Game.Ready (g : Game) : Prop := Sound g.world ∧ ∀ r, g.room = some r → Adventure.Ready g.world r

theorem Game.Ready.start {w : World} (h : Sound w) : (startGame w).Ready := by
  refine ⟨h, ?_⟩
  rintro r ⟨⟩
  exact ⟨h, nofun⟩

theorem Game.Ready.step {g g' : Game} {a : Action × (Nat → Nat)} (h : g.Ready) (hs : Plays g a g') :
    g'.Ready := by
  obtain ⟨r, reply, hr, hreply, rfl⟩ := hs
  obtain ⟨here, hstands, houtcome⟩ := (h.2 r hr).outcome_of hreply
  exact houtcome.ready (h.2 r hr) hstands

/-- In every state of every game. -/
theorem Game.Ready.of_run {readPhoto : String → Option Photo} {readObjImage : String → Option Image}
    {rand : ObjId → Nat → Nat} {w : World} {g : Game} {actions : List (Action × (Nat → Nat))}
    (hbuild : buildWorld readPhoto readObjImage rand = some (.ok w))
    (hrun : Run Plays (startGame w) actions g) : g.Ready :=
  hrun.invariant (I := Game.Ready) (.start (sound_of_build hbuild)) fun _ _ _ h hs => h.step hs

/-- **`ListsInOrder w`** — every contents list is finite and free of repetitions; an object is on the
list of a room exactly if that room is its location, on one list at most, and on none in limbo. -/
structure ListsInOrder (w : World) (lists : RoomId → List ObjId) : Prop where
  chain : ∀ r, Chain w.next (w.contents r) (lists r)
  nodup : ∀ r, (lists r).Nodup
  mem_iff : ∀ o r, o ∈ lists r ↔ w.loc o = some r
  unique : ∀ o r r', o ∈ lists r → o ∈ lists r' → r = r'
  limbo : ∀ o, w.loc o = none → ∀ r, o ∉ lists r

/-- **`LoopsEnd w`** — the loops over the lists end. -/
structure LoopsEnd (w : World) : Prop where
  findInRoom : ∀ r arg, (w.findInRoom r arg).isSome
  removeObject : ∀ o, (w.removeObject o).isSome
  contentsList : ∀ r, (w.contentsList r).isSome

theorem World.Listed.listsInOrder {w : World} (h : w.Listed) : ∃ lists, ListsInOrder w lists := by
  choose lists hchain hnd hmem using h
  refine ⟨lists, hchain, hnd, fun o r => hmem r o, fun o r r' hr hr' => ?_, fun o ho r hr => ?_⟩
  · rw [hmem] at hr hr'
    exact Option.some.inj (hr.symm.trans hr')
  · rw [hmem, ho] at hr
    cases hr

theorem World.Listed.loopsEnd {w : World} (h : w.Listed) : LoopsEnd w where
  findInRoom r arg := by
    obtain ⟨found, hfound⟩ := h.findFrom (fun o => (w.object o).name.any (strcasecmp arg)) r
    rw [World.findInRoom, hfound]
    rfl
  removeObject o := by
    obtain ⟨w', hw', -⟩ := h.removeObject o
    rw [hw']
    rfl
  contentsList r := by
    obtain ⟨l, hchain, hnd, -⟩ := h r
    rw [World.contentsList, walk_eq hchain (length_le_nObjects hnd)]
    rfl

/-- **The contents lists stay well formed.**  Whatever the files hold and `rand` returns, in every state
of every game the lists are in order, the loops over them end, and the next action has a result. -/
theorem contents_stay_well_formed {readPhoto : String → Option Photo}
    {readObjImage : String → Option Image} {rand : ObjId → Nat → Nat} {w : World} {g : Game}
    {actions : List (Action × (Nat → Nat))}
    (hbuild : buildWorld readPhoto readObjImage rand = some (.ok w))
    (hrun : Run Plays (startGame w) actions g) :
    (∃ lists, ListsInOrder g.world lists) ∧ LoopsEnd g.world ∧
    ∀ r rand a, g.room = some r → (act g.world r rand a).isSome := by
  have hready : g.Ready := .of_run hbuild hrun
  refine ⟨hready.1.listed.listsInOrder, hready.1.listed.loopsEnd, fun r rand a hr => ?_⟩
  obtain ⟨-, reply, -, hreply, -⟩ := (hready.2 r hr).outcome rand a
  rw [hreply]
  rfl

/-- The actions in order, with a `rand` that returns 0. -/
def playAll (g : Game) : List Action → Option Game
  | [] => some g
  | a :: as =>
      match g.room with
      | none => none
      | some r => (act g.world r (fun _ => 0) a).bind fun reply => playAll ⟨reply.world, reply.room⟩ as

theorem run_of_playAll {g g' : Game} {as : List Action} (h : playAll g as = some g') :
    Run Plays g (as.map fun a => (a, fun _ => 0)) g' := by
  induction as generalizing g with
  | nil => exact Option.some.inj h
  | cons a as ih =>
      unfold playAll at h
      split at h
      · cases h
      next r hr =>
        obtain ⟨reply, hreply, hrest⟩ := Option.bind_eq_some_iff.mp h
        exact ⟨_, ⟨r, reply, hr, hreply, rfl⟩, ih hrest⟩

/-- Photos and images of one size. -/
def plainPhoto : Photo := ⟨⟨320, 200, by decide, by decide⟩, fun _ => 0⟩
def plainImage : Image := ⟨⟨10, 10, by decide, by decide⟩, fun _ => 0⟩

theorem plain_world_builds :
    ∃ w, buildWorld (fun _ => some plainPhoto) (fun _ => some plainImage) (fun _ _ => 0) =
      some (.ok w) := by
  have hok : ((buildWorld (fun _ => some plainPhoto) (fun _ => some plainImage)
      (fun _ _ => 0)).any Except.isOk) = true := by decide +kernel
  obtain ⟨built, hbuilt, hisOk⟩ := (Option.any_eq_true _ _).mp hok
  cases built with
  | error e => cases hisOk
  | ok w => exact ⟨w, hbuilt⟩

/-- The player gets the fish, goes to another room and drops it there. -/
def fishing : List Action :=
  [.moveLeft, .typed .wear "bunnysuit", .moveRight, .moveRight, .typed .sigh "", .moveLeft, .moveLeft,
   .moveLeft, .moveRight, .moveRight, .moveLeft, .typed .get "fish", .moveLeft, .enter, .typed .drop "fish"]

/-- The fish is in the list of the other room. -/
theorem fishing_well_formed : ∃ w g,
    buildWorld (fun _ => some plainPhoto) (fun _ => some plainImage) (fun _ _ => 0) = some (.ok w) ∧
    Run Plays (startGame w) (fishing.map fun a => (a, fun _ => 0)) g ∧
    w.loc .fish = some .eastBone ∧ g.world.loc .fish = some .talbotNw ∧
    (∃ lists, ListsInOrder g.world lists ∧ .fish ∈ lists .talbotNw) ∧ LoopsEnd g.world := by
  obtain ⟨w, hbuild⟩ := plain_world_builds
  have hplayed : ((buildWorld (fun _ => some plainPhoto) (fun _ => some plainImage)
      (fun _ _ => 0)).any fun built => built.toOption.any fun w =>
        decide (w.loc .fish = some .eastBone) && (playAll (startGame w) fishing).any fun g =>
          decide (g.world.loc .fish = some .talbotNw)) = true := by decide +kernel
  rw [hbuild] at hplayed
  change (decide (w.loc .fish = some .eastBone) && (playAll (startGame w) fishing).any fun g =>
    decide (g.world.loc .fish = some .talbotNw)) = true at hplayed
  obtain ⟨hbefore, hplayed⟩ := Bool.and_eq_true_iff.mp hplayed
  obtain ⟨g, hg, hafter⟩ := (Option.any_eq_true _ _).mp hplayed
  have hrun := run_of_playAll hg
  have hafter := of_decide_eq_true hafter
  obtain ⟨⟨lists, hlists⟩, hloops, -⟩ := contents_stay_well_formed hbuild hrun
  exact ⟨w, g, hbuild, hrun, of_decide_eq_true hbefore, hafter, ⟨lists, hlists, (hlists.mem_iff _ _).mpr hafter⟩, hloops⟩

end Ece391.Adventure
