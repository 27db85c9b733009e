/-
# Ece391.Adventure.Story — the game is won the intended way, and nothing is lost on the way.

The commands of `world.c` follow the plot: in every state of every game there is a room the player stands
in (`Episode`), and every outcome of an action advances it together with the plot.  A player who looks at the
inventory stands in the room its `enter` records, so whatever is done there is a turn in that room.

What `Earned` and `Conserved` say of plots then holds of every game.
-/
import Ece391.Adventure.Contents

open Ece391.Lib

namespace Ece391.Adventure

/-! ## Episodes -/

/-- The exits are those of `room_data`, but for the inventory's and the cockpit's `enter`. -/
structure Links (w : World) : Prop where
  left : ∀ r dest, (w.room r).left = some dest → IsExit r dest
  enter : ∀ r dest, r ≠ .inventory → r ≠ .cockpit → (w.room r).enter = some dest → IsExit r dest
  right : ∀ r dest, (w.room r).right = some dest → IsExit r dest

/-- **`Episode w r here`** — between two actions of a player who sees room `r` and stands in `here`. -/
structure Episode (w : World) (r here : RoomId) : Prop extends Ready w r where
  links : Links w
  stands : w.standing r = some here

section Links

variable {a : Action} {w w' : World}

/-- An assignment to a room that touches neither `left` nor `right`, nor the `enter` of another room than the
inventory and the cockpit. -/
theorem Links.setRoom (h : Links w) (r : RoomId) {f : Room → Room}
    (hleft : (f (w.room r)).left = (w.room r).left) (hright : (f (w.room r)).right = (w.room r).right)
    (henter : r ≠ .inventory → r ≠ .cockpit → (f (w.room r)).enter = (w.room r).enter) :
    Links (w.setRoom r f) where
  left r' dest := by
    rw [setRoom_field w r Room.left hleft]
    exact h.left r' dest
  enter r' dest hi hc := by
    by_cases hr : r' = r
    · subst hr
      rw [setRoom_room_self, henter hi hc]
      exact h.enter r' dest hi hc
    · rw [setRoom_room_of_ne _ _ _ _ hr]
      exact h.enter r' dest hi hc
  right r' dest := by
    rw [setRoom_field w r Room.right hright]
    exact h.right r' dest

theorem Links.doPhotoSwap (h : Links w) (r : RoomId) (which : SwapId) : Links (w.doPhotoSwap r which) := by
  have hroom : Links (w.setRoom r fun b => { b with view := w.swapPhoto which }) :=
    h.setRoom r rfl rfl fun _ _ => rfl
  exact ⟨hroom.left, hroom.enter, hroom.right⟩

theorem Edits.links (he : Edits a w w') (h : Links w) : Links w' := by
  refine he.invariant (fun w w' h he => ?_) h
  cases he with
  | move _ hm =>
      refine ⟨fun r dest => ?_, fun r dest => ?_, fun r dest => ?_⟩
      · rw [hm.left]
        exact h.left r dest
      · rw [hm.enter]
        exact h.enter r dest
      · rw [hm.right]
        exact h.right r dest
  | setFlag f => exact ⟨h.left, h.enter, h.right⟩
  | swap r which => exact h.doPhotoSwap r which
  | takeoff => exact h.setRoom .cockpit rfl rfl fun _ hc => absurd rfl hc

/-- Who looks at the inventory still stands where they stood. -/
theorem Edits.standing (he : Edits a w w') (r : RoomId) : w'.standing r = w.standing r := by
  have henter : (w'.room .inventory).enter = (w.room .inventory).enter := by
    refine he.invariant (I := fun w' => (w'.room .inventory).enter = (w.room .inventory).enter) ?_ rfl
    intro w1 w2 h he
    cases he with
    | move _ hm => exact (hm.enter _).trans h
    | setFlag f => exact h
    | swap r which =>
        rw [doPhotoSwap_room, setRoom_field w1 r Room.enter rfl]
        exact h
    | takeoff =>
        rw [setRoom_room_of_ne w1 .cockpit .inventory _ nofun]
        exact h
  rw [World.standing, World.standing, henter]

end Links

namespace Episode

variable {a : Action} {w : World} {r here : RoomId}

/-- In another room the world is the same. -/
theorem enterRoom (h : Episode w r here) {dest : RoomId} (hdest : dest ≠ .inventory) : Episode w dest dest where
  toSound := h.toSound
  placed heq := absurd heq hdest
  links := h.links
  stands := by rw [World.standing, if_neg hdest]

/-- The world is edited, the player stays. -/
theorem edits {w' : World} (h : Episode w r here) (he : Edits a w w') : Episode w' r here :=
  ⟨he.ready h.toReady, he.links h.links, (he.standing r).trans h.stands⟩

/-- The photo of the Boneyard Circle is no part of the plot. -/
theorem arrive_plot (w : World) (dest : RoomId) (rand : Nat → Nat) :
    (Adventure.arrive w dest rand).world.plot = w.plot := by
  unfold Adventure.arrive
  dsimp only
  split
  next hc =>
    obtain ⟨rfl, -⟩ := hc
    rfl
  next => rfl

/-- The player looks at the inventory. -/
theorem look (h : Episode w r here) (hr : r ≠ .inventory) :
    Episode (w.setRoom .inventory fun b => { b with enter := some r }) .inventory here where
  toSound := h.toSound.setEnter .inventory hr
  placed _ := by
    rw [setRoom_room_self]
    exact nofun
  links := h.links.setRoom .inventory rfl rfl fun hi => absurd rfl hi
  stands := by rw [World.standing, if_pos rfl, setRoom_room_self, here_eq h.stands hr]

/-- `room_data` has no exit from the inventory, so an exit leads out of the room the player stands in. -/
theorem exit_walk (h : Episode w r here) {dest : RoomId} (hexit : IsExit r dest) : Walk w.plot here dest := by
  have hnone : ∀ d ∈ roomData, d.id = .inventory → d.left = none ∧ d.enter = none ∧ d.right = none := by
    decide
  by_cases hr : r = .inventory
  · subst hr
    obtain ⟨d, hd, hid, hdest⟩ := hexit
    obtain ⟨hleft, henter, hright⟩ := hnone d hd hid
    rw [hleft, henter, hright] at hdest
    simp at hdest
  · rw [← here_eq h.stands hr]
    exact .exit hexit

/-- The way through an exit: one of `room_data`, back from the inventory, or up in the air. -/
theorem exit_advance (h : Episode w r here) {dest : RoomId} (hexit : w.Exit r dest) :
    dest ≠ .inventory ∧ Advance (here, w.plot) (dest, w.plot) := by
  rcases hexit with hleft | henter | hright
  · exact ⟨fun heq => h.left r (heq ▸ hleft), .walk (h.exit_walk (h.links.left r dest hleft))⟩
  · refine ⟨fun heq => h.enter r (heq ▸ henter), ?_⟩
    by_cases hr : r = .inventory
    · subst hr
      have hstands := h.stands
      rw [World.standing, if_pos rfl, henter] at hstands
      obtain rfl := Option.some.inj hstands
      exact .turn .idle
    · by_cases hc : r = .cockpit
      · subst hc
        obtain rfl := here_eq h.stands hr
        exact .walk (.takeoff henter rfl)
      · exact .walk (h.exit_walk (h.links.enter r dest hr hc henter))
  · exact ⟨fun heq => h.right r (heq ▸ hright), .walk (h.exit_walk (h.links.right r dest hright))⟩

/-- **Every action advances the story, except the one that wins.** -/
theorem outcome (h : Episode w r here) {reply : Reply} (ho : Outcome a w r here reply) :
    (∃ r' here', reply.room = some r' ∧ Advance (here, w.plot) (here', reply.world.plot) ∧
      Episode reply.world r' here') ∨
    reply = ⟨w, none, .changeRoom, []⟩ ∧ (∃ arg, a = .typed .do arg) ∧ w.plot.Has .bookC ∧
      w.plot.loc .tux ≠ some .remLab := by
  cases ho with
  | stay he ht _ =>
      exact .inl ⟨r, here, rfl, .turn ht, h.edits he⟩
  | @arrive dest rand hexit =>
      obtain ⟨hdest, hadvance⟩ := h.exit_advance hexit
      refine .inl ⟨dest, dest, rfl, ?_, (h.edits (Edits.arrive a w dest rand)).enterRoom hdest⟩
      rw [arrive_plot]
      exact hadvance
  | walk hw hdest => exact .inl ⟨_, _, rfl, .walk hw, h.enterRoom hdest⟩
  | look hr => exact .inl ⟨_, here, rfl, .turn .idle, h.look hr⟩
  | back => exact .inl ⟨here, here, rfl, .turn .idle, h.enterRoom (h.here_ne h.stands)⟩
  | win hdo hbook htux =>
      have hlab : w.loc .tux ≠ some .remLab := by
        rw [htux]
        decide
      exact .inr ⟨rfl, ⟨_, hdo⟩, has_of_loc hbook, hlab⟩

end Episode

/-! ## The start -/

section Start

variable {readPhoto : String → Option Photo} {readObjImage : String → Option Image}
  {rand : ObjId → Nat → Nat} {w : World}

/-- A room with exits of the data only, none of them from the cockpit's `enter`. -/
structure Room.Linked (r : RoomId) (b : Room) : Prop where
  exits : ∀ dest, b.left = some dest ∨ b.enter = some dest ∨ b.right = some dest → IsExit r dest
  cockpit : r = .cockpit → b.enter = none

theorem linked_of_data : ∀ d ∈ roomData, ∀ view,
    Room.Linked d.id ⟨some d.name, some view, none, d.left, d.enter, d.right⟩ := by
  have hcockpit : ∀ d ∈ roomData, d.id = .cockpit → d.enter = none := by decide
  intro d hd view
  exact ⟨fun dest hdest => ⟨d, hd, rfl, hdest⟩, hcockpit d hd⟩

theorem built_linked (h : buildWorld readPhoto readObjImage rand = some (.ok w)) :
    Built Room.Linked w :=
  built_of_build linked_of_data
    (fun r => ⟨fun dest hdest => by simp [World.zero] at hdest, fun _ => rfl⟩) h

/-- **The first episode.** -/
theorem Episode.start (h : Built Room.Linked w) : Episode w .eastEvrt .eastEvrt where
  toSound := h.toSound
  placed := nofun
  links := by
    refine ⟨fun r dest hdest => ?_, fun r dest _ _ hdest => ?_, fun r dest hdest => ?_⟩
    all_goals obtain ⟨b, hlinked, hleft, henter, hright⟩ := h.rooms r
    · exact hlinked.exits dest (Or.inl (hleft ▸ hdest))
    · exact hlinked.exits dest (Or.inr (Or.inl (henter ▸ hdest)))
    · exact hlinked.exits dest (Or.inr (Or.inr (hright ▸ hdest)))
  stands := rfl

theorem takeoff_start (h : Built Room.Linked w) : w.plot.takeoff = none := by
  obtain ⟨b, hlinked, -, henter, -⟩ := h.rooms .cockpit
  exact henter.trans (hlinked.cockpit rfl)

/-- At the start, an object is where the data puts it. -/
theorem loc_start (h : Built Room.Linked w) (o : ObjId) :
    w.plot.loc o = (objData.foldl (fun loc d => Function.update loc d.id d.room) fun _ => none) o :=
  congrFun h.loc o

theorem Earned.start (h : Built Room.Linked w) : Earned .eastEvrt w.plot := by
  have hflags : ∀ f, w.plot.flags f = false := fun f => congrFun h.flags f
  have hfair : ∀ o : ObjId, Fair w.plot
      ((objData.foldl (fun loc d => Function.update loc d.id d.room) fun _ => none) o) o := by
    intro o
    cases o with
    | mimoCard => exact fun hl => absurd rfl hl
    | tux => exact fun hl => absurd rfl hl
    | bookC => exact fun hl => absurd rfl hl
    | battCar => exact fun hl => absurd rfl hl
    | battEmpty => exact fun hl => absurd rfl hl
    | battFull => exact fun hl => absurd rfl hl
    | gpsGood => exact fun hl => absurd rfl hl
    | _ => trivial
  refine ⟨trivial, fun o => ?_, fun hf => ?_, fun ht => absurd (takeoff_start h) ht, fun hf => ?_⟩
  · rw [loc_start h]
    exact hfair o
  · rw [hflags] at hf
    cases hf
  · rw [hflags] at hf
    cases hf

theorem Conserved.start (h : Built Room.Linked w) : Conserved w.plot w.plot := by
  have hflags : ∀ f, w.plot.flags f = false := fun f => congrFun h.flags f
  have hhas : ∀ o : ObjId, w.plot.Has o ↔
      (objData.foldl (fun loc d => Function.update loc d.id d.room) fun _ => none) o ≠ none := by
    intro o
    rw [Plot.Has, loc_start h]
  constructor
  case carView => simp [hflags]
  case carSwap => simp [hflags]
  all_goals
    simp only [hhas, hflags, takeoff_start h]
    decide

end Start

/-! ## Whole games -/

/-- What holds between two actions: the story so far. -/
def Told (p₀ : Plot) (g : Game) : Prop :=
  ∃ here, Earned here g.world.plot ∧ Conserved p₀ g.world.plot ∧
    (∀ r, g.room = some r → Episode g.world r here) ∧
    (g.room = none → g.world.plot.Has .bookC ∧ g.world.plot.loc .tux ≠ some .remLab)

theorem Told.start {w : World} (h : Built Room.Linked w) : Told w.plot (startGame w) := by
  refine ⟨.eastEvrt, .start h, .start h, ?_, nofun⟩
  rintro r ⟨⟩
  exact .start h

/-- One action: the story goes on, and only `typed_cmd_do` ends it. -/
theorem Told.step {p₀ : Plot} {g g' : Game} {a : Action × (Nat → Nat)} (h : Told p₀ g)
    (hs : Plays g a g') : Told p₀ g' ∧ (g'.room = none → ∃ arg, a.1 = .typed .do arg) := by
  obtain ⟨here, hearned, hconserved, hepisode, -⟩ := h
  obtain ⟨r, reply, hr, hreply, rfl⟩ := hs
  have h := hepisode r hr
  obtain ⟨reply', hreply', houtcome⟩ := act_outcome h.toReady h.stands a.2 a.1
  obtain rfl := Option.some.inj (hreply'.symm.trans hreply)
  rcases h.outcome houtcome with ⟨r', here', hroom, hadvance, hepisode'⟩ | ⟨rfl, hdo, hbook, htux⟩
  · refine ⟨⟨here', hearned.advance hadvance, hconserved.advance hadvance, ?_, fun hnone => ?_⟩,
      fun hnone => ?_⟩
    · intro r'' hr''
      obtain rfl := Option.some.inj (hroom.symm.trans hr'')
      exact hepisode'
    · exact absurd (hroom.symm.trans hnone) nofun
    · exact absurd (hroom.symm.trans hnone) nofun
  · exact ⟨⟨here, hearned, hconserved, nofun, fun _ => ⟨hbook, htux⟩⟩, fun _ => hdo⟩

section Games

variable {readPhoto : String → Option Photo} {readObjImage : String → Option Image}
  {rand : ObjId → Nat → Nat} {w : World} {g : Game} {actions : List (Action × (Nat → Nat))}

theorem Told.of_run (hbuild : buildWorld readPhoto readObjImage rand = some (.ok w))
    (hrun : Run Plays (startGame w) actions g) : Told w.plot g :=
  hrun.invariant (I := Told w.plot) (.start (built_linked hbuild)) fun _ _ _ h hs => (h.step hs).1

/-- **`WonAsIntended actions g`** — the last action was `typed_cmd_do`, every accomplishment is
reached, and the plane of the cockpit can take off. -/
structure WonAsIntended (actions : List (Action × (Nat → Nat))) (g : Game) : Prop where
  last : ∃ before arg rand, actions = before ++ [(.typed .do arg, rand)]
  flags : ∀ f, g.world.flags f
  takeoff : (g.world.room .cockpit).enter = some .overWill

theorem plays_unique (g : Game) (a : Action × (Nat → Nat)) (g₁ g₂ : Game) (h₁ : Plays g a g₁)
    (h₂ : Plays g a g₂) : g₁ = g₂ := by
  obtain ⟨r₁, reply₁, hr₁, hreply₁, rfl⟩ := h₁
  obtain ⟨r₂, reply₂, hr₂, hreply₂, rfl⟩ := h₂
  obtain rfl := Option.some.inj (hr₁.symm.trans hr₂)
  obtain rfl := Option.some.inj (hreply₁.symm.trans hreply₂)
  rfl

/-- While the game goes on the player is in a room. -/
theorem room_while_playing (hrun : Run Plays (startGame w) actions g) :
    AllSteps Plays (fun m _ => m.room ≠ none) (startGame w) actions := by
  intro before a after m hactions hbefore
  rw [hactions, run_append] at hrun
  obtain ⟨m', hbefore', m'', ⟨r, -, hr, -⟩, -⟩ := hrun
  obtain rfl := Run.unique plays_unique hbefore hbefore'
  rw [hr]
  exact nofun

/-- **The game can only be won the intended way.**  Whatever the files hold, the player does and `rand`
returns: the room pointer is NULL only in a state won as intended, and in none before; and who looks at
the inventory has a room to go back to. -/
theorem won_only_as_intended (hbuild : buildWorld readPhoto readObjImage rand = some (.ok w))
    (hrun : Run Plays (startGame w) actions g) :
    (g.room = none → WonAsIntended actions g) ∧
    AllSteps Plays (fun m _ => m.room ≠ none) (startGame w) actions ∧
    (g.room = some .inventory → ∃ here, here ≠ .inventory ∧
      (g.world.room .inventory).enter = some here) := by
  obtain ⟨here, hearned, -, hepisode, hwon⟩ := Told.of_run hbuild hrun
  refine ⟨fun hnone => ?_, room_while_playing hrun, fun hinventory => ?_⟩
  · obtain ⟨hbook, htux⟩ := hwon hnone
    obtain ⟨hflags, htakeoff⟩ := hearned.finish hbook htux
    refine ⟨?_, hflags, htakeoff⟩
    -- the run is not empty, and its last action is the one that won
    rcases List.eq_nil_or_concat actions with rfl | ⟨before, ⟨a, rand'⟩, rfl⟩
    · rw [run_nil] at hrun
      rw [← hrun] at hnone
      cases hnone
    · rw [List.concat_eq_append, run_snoc] at hrun
      obtain ⟨m, hbefore, hlast⟩ := hrun
      obtain ⟨arg, rfl⟩ := ((Told.of_run hbuild hbefore).step hlast).2 hnone
      exact ⟨before, arg, rand', List.concat_eq_append⟩
  · have hs := hepisode .inventory hinventory
    refine ⟨here, hs.here_ne hs.stands, ?_⟩
    rw [← hs.stands, World.standing, if_pos rfl]

/-- A whole game, won in 150 actions. -/
def walkthrough : List Action :=
  [.moveLeft, .typed .wear "bunnysuit", .moveRight, .moveRight, .typed .sigh "", .moveLeft,
   .moveLeft, .moveLeft, .moveRight, .moveRight, .moveLeft, .typed .get "fish", .moveLeft,
   .enter, .enter, .typed .get "gps", .enter, .moveRight, .moveRight, .enter, .typed .get "key",
   .enter, .moveRight, .moveRight, .moveRight, .enter, .enter, .moveRight, .typed .get "icard",
   .moveLeft, .enter, .typed .get "book", .enter, .moveLeft, .enter, .moveRight, .moveLeft,
   .enter, .moveRight, .enter, .typed .get "robot", .enter, .moveLeft, .enter, .moveLeft,
   .moveRight, .enter, .enter, .moveLeft, .typed .get "spec", .enter, .typed .get "mp2", .enter,
   .moveRight, .enter, .moveRight, .moveLeft, .moveRight, .moveLeft, .moveRight, .moveRight,
   .moveLeft, .moveLeft, .enter, .moveLeft, .enter, .moveLeft, .enter, .typed .flash "robot",
   .enter, .moveRight, .moveRight, .enter, .typed .fix "gps", .enter, .moveRight, .enter,
   .moveRight, .moveRight, .enter, .moveRight, .moveRight, .moveRight, .moveRight, .enter,
   .moveRight, .moveLeft, .moveRight, .moveLeft, .enter, .enter, .typed .use "car",
   .typed .get "battery", .enter, .moveLeft, .moveLeft, .enter, .enter, .enter,
   .typed .charge "battery", .enter, .moveRight, .moveRight, .enter, .enter,
   .typed .install "battery", .typed .go "allerton", .moveLeft, .enter, .typed .get "mimo",
   .enter, .moveRight, .typed .go "willard", .enter, .moveLeft, .moveLeft,
   .typed .install "mimo", .enter, .moveRight, .moveRight, .enter, .typed .use "fish", .enter,
   .moveLeft, .moveLeft, .enter, .moveRight, .moveRight, .moveRight, .typed .go "campus", .enter,
   .moveLeft, .moveRight, .moveRight, .moveLeft, .moveRight, .moveLeft, .moveRight, .moveRight,
   .moveLeft, .moveLeft, .enter, .moveLeft, .enter, .moveLeft, .moveLeft, .moveLeft, .enter,
   .typed .drop "tux", .typed .do "mp2"]

theorem walkthrough_run : ∃ w g,
    buildWorld (fun _ => some plainPhoto) (fun _ => some plainImage) (fun _ _ => 0) = some (.ok w) ∧
    Run Plays (startGame w) (walkthrough.map fun a => (a, fun _ => 0)) g ∧ g.room = none := by
  obtain ⟨w, hbuild⟩ := plain_world_builds
  have hwon : ((buildWorld (fun _ => some plainPhoto) (fun _ => some plainImage)
      (fun _ _ => 0)).any fun built => built.toOption.any fun w =>
        (playAll (startGame w) walkthrough).any fun g => g.room.isNone) = true := by decide +kernel
  rw [hbuild] at hwon
  change (playAll (startGame w) walkthrough).any (fun g => g.room.isNone) = true at hwon
  obtain ⟨g, hg, hroom⟩ := (Option.any_eq_true _ _).mp hwon
  exact ⟨w, g, hbuild, run_of_playAll hg, Option.isNone_iff_eq_none.mp hroom⟩

theorem walkthrough_wins : ∃ w g,
    buildWorld (fun _ => some plainPhoto) (fun _ => some plainImage) (fun _ _ => 0) = some (.ok w) ∧
    Run Plays (startGame w) (walkthrough.map fun a => (a, fun _ => 0)) g ∧
    WonAsIntended (walkthrough.map fun a => (a, fun _ => 0)) g := by
  obtain ⟨w, g, hbuild, hrun, hroom⟩ := walkthrough_run
  exact ⟨w, g, hbuild, hrun, (won_only_as_intended hbuild hrun).1 hroom⟩

/-- **Transforming objects are neither lost nor doubled.**  With two different photos, the car site shows
the swapped one exactly while a battery is out. -/
theorem transforming_objects_conserved (hbuild : buildWorld readPhoto readObjImage rand = some (.ok w))
    (hrun : Run Plays (startGame w) actions g) :
    Conserved w.plot g.world.plot ∧
    (w.swapPhoto .car ≠ (w.room .carSite).view →
      ((g.world.room .carSite).view = w.swapPhoto .car ↔
        g.world.flags .carOpen ∧ ¬ g.world.flags .carFixed)) := by
  obtain ⟨-, -, hconserved, -⟩ := Told.of_run hbuild hrun
  refine ⟨hconserved, fun hphotos => ?_⟩
  have hview : (g.world.room .carSite).view = if g.world.flags .carOpen ∧ ¬ g.world.flags .carFixed
      then w.swapPhoto .car else (w.room .carSite).view := hconserved.carView
  rw [hview]
  split
  next hout => exact iff_of_true rfl hout
  next hout => exact iff_of_false (Ne.symm hphotos) hout

theorem walkthrough_conserves : ∃ w g,
    buildWorld (fun _ => some plainPhoto) (fun _ => some plainImage) (fun _ _ => 0) = some (.ok w) ∧
    Run Plays (startGame w) (walkthrough.map fun a => (a, fun _ => 0)) g ∧
    Conserved w.plot g.world.plot := by
  obtain ⟨w, g, hbuild, hrun, -⟩ := walkthrough_run
  exact ⟨w, g, hbuild, hrun, (transforming_objects_conserved hbuild hrun).1⟩

end Games

end Ece391.Adventure
