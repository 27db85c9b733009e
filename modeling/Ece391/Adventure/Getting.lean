/-
# Ece391.Adventure.Getting — `get` and what was asked for.

The search of `typed_cmd_get` looks for special objects first: the two books of the reference desk, which
are handed out if a book is asked for, and the battery in the open car, which is handed out whatever is
asked for.  The first part of this file is about names: `build_world` gives each object the name of the
data, and no action changes it.  The second says, from what the search finds (`Sought`), when `get` takes
what was asked for: whenever there is no battery in the car, or the player wants the battery.
-/
import Ece391.Adventure.Story

open Ece391.Lib

namespace Ece391.Adventure

/-! ## Names -/

/-- The names of the data. -/
def dataNames : ObjId → Option String :=
  objData.foldl (fun (names : ObjId → Option String) d => Function.update names d.id (some d.name))
    fun _ => none

theorem Edits.names {a : Action} {w w' : World} (he : Edits a w w') : w'.names = w.names := by
  refine he.invariant (I := fun w' => w'.names = w.names) (fun w1 w2 h he => ?_) rfl
  cases he with
  | move _ hm => exact (funext hm.name).trans h
  | _ => exact h

/-- **No action changes a name.** -/
theorem Outcome.names {a : Action} {w : World} {r here : RoomId} {reply : Reply}
    (ho : Outcome a w r here reply) : reply.world.names = w.names := by
  cases ho with
  | stay he _ _ => exact he.names
  | arrive rand _ => exact (Edits.arrive a w _ rand).names
  | _ => rfl

/-! ### The names of a built world -/

section Build

variable {readPhoto : String → Option Photo} {readObjImage : String → Option Image}
  {rand : ObjId → Nat → Nat} {w : World}

theorem names_of_build (h : buildWorld readPhoto readObjImage rand = some (.ok w)) :
    w.names = dataNames := by
  obtain ⟨w1, w2, h1, h2, h3⟩ := build_loops h
  have hrooms : w1.names = fun _ => none := by
    funext o
    rw [World.names, (buildRooms_fresh h1).2.2.1]
    rfl
  have hswaps : w.names = w2.names := by
    funext o
    rw [World.names, (buildSwaps_spec h3).2.1]
    rfl
  rw [hswaps, (furnished_of_build h1 h2).names, hrooms, dataNames]

/-- In every state of every game the objects have the names of the data. -/
theorem names_of_run {g : Game} {actions : List (Action × (Nat → Nat))}
    (hbuild : buildWorld readPhoto readObjImage rand = some (.ok w))
    (hrun : Run Plays (startGame w) actions g) : g.world.names = dataNames := by
  refine (hrun.invariant (I := fun g => g.Ready ∧ g.world.names = dataNames)
    ⟨.start (sound_of_build hbuild), names_of_build hbuild⟩ ?_).2
  rintro g a g' ⟨hready, hnames⟩ hs
  refine ⟨hready.step hs, ?_⟩
  obtain ⟨r, reply, hr, hreply, rfl⟩ := hs
  obtain ⟨here, -, houtcome⟩ := (hready.2 r hr).outcome_of hreply
  exact houtcome.names.trans hnames

end Build

/-! ## What was asked for -/

/-- **`Obtainable w src o`** — the object can be gotten in the room `src`: it lies there, Tux only after he
was lured; or it is one that `obj_special_get` hands out there. -/
inductive Obtainable (w : World) (src : RoomId) : ObjId → Prop
  | lying (o : ObjId) : w.loc o = some src → (o = .tux → w.flags .luredTux) → Obtainable w src o
  | desk (o : ObjId) : AtDesk w src o → Obtainable w src o
  | battery : src = .carSite → w.loc .battCar = some src → Obtainable w src .battEmpty

theorem strcasecmp_comm (s t : String) : strcasecmp s t = strcasecmp t s := by
  unfold strcasecmp
  exact Bool.beq_comm

section Search

variable {w : World} {src r : RoomId} {arg : String}

/-- **`GetsAskedFor w w' src arg`** — an object that comes to the inventory is called what was asked for; and
if none of that name is obtainable, every object stays where it is. -/
structure GetsAskedFor (w w' : World) (src : RoomId) (arg : String) : Prop where
  taken : ∀ o, w.loc o ≠ some .inventory → w'.loc o = some .inventory → w.Called o arg
  untouched : (∀ o, Obtainable w src o → ¬w.Called o arg) → w'.loc = w.loc

/-- **`w.gotten loc' found`** — the locations after the search: what was found goes to the inventory, but for
Tux before he was lured. -/
def World.gotten (w : World) (loc' : ObjId → Option RoomId) : Option ObjId → ObjId → Option RoomId
  | some o => if o = .tux ∧ ¬w.flags .luredTux then loc' else Function.update loc' o (some .inventory)
  | none => loc'

/-- What `get` does to the locations. -/
theorem typedCmdGet_loc (h : Ready w r) (hstands : w.standing r = some src) (arg : String)
    (rand : Nat → Nat) :
    ∃ reply w' found, typedCmdGet w r arg rand = some reply ∧ Sought w src arg w' found ∧
      reply.world.loc = w.gotten w'.loc found := by
  obtain ⟨w', found, shown, hseek, hsought⟩ := h.toSound.seek src arg
  obtain ⟨hsound, hflags⟩ := hsought.sound h.toSound
  unfold typedCmdGet
  simp only [hstands, Option.bind_eq_bind, Option.bind_some, hseek]
  cases found with
  | none => exact ⟨_, _, _, rfl, hsought, rfl⟩
  | some o =>
      dsimp only
      rw [hflags]
      by_cases htux : o = .tux ∧ ¬w.flags .luredTux
      · rw [if_pos htux]
        exact ⟨_, _, _, rfl, hsought, (if_pos htux).symm⟩
      · rw [if_neg htux]
        obtain ⟨w'', hw'', hm⟩ := hsound.listed.placeInInventory o rand (hsound.view _) (hsound.img o)
          World.inventoryGrid
        have hmove : w'.moveObjectToInventory o rand = some w'' := hw''
        rw [hmove]
        exact ⟨_, _, _, rfl, hsought, hm.loc.trans (if_neg htux).symm⟩

/-- Who has a name of the data is called by it. -/
theorem called_iff (hnames : w.names = dataNames) {o : ObjId} {name : String}
    (ho : dataNames o = some name) : w.Called o arg ↔ strcasecmp name arg = true := by
  rw [World.Called, hnames, ho, Option.any_some, strcasecmp_comm]

/-- Nothing was moved. -/
theorem getsAskedFor_of_loc {w' : World} (hloc : w'.loc = w.loc) : GetsAskedFor w w' src arg where
  taken _ ho ho' := absurd (hloc ▸ ho') ho
  untouched _ := hloc

/-- One object that was asked for came to the inventory. -/
theorem getsAskedFor_of_update {w' : World} {loc' : ObjId → Option RoomId} {o : ObjId}
    (hloc : w'.loc = Function.update loc' o (some .inventory))
    (hothers : ∀ o', loc' o' = some .inventory → w.loc o' = some .inventory)
    (hcalled : w.Called o arg) (hobtain : Obtainable w src o) : GetsAskedFor w w' src arg where
  taken o' ho' htaken := by
    by_cases heq : o' = o
    · exact heq ▸ hcalled
    · rw [hloc, Function.update_of_ne heq] at htaken
      exact absurd (hothers o' htaken) ho'
  untouched hnone := absurd hcalled (hnone o hobtain)

/-- **A search decides it.**  Only the battery in the car is handed out to who did not ask for it. -/
theorem Sought.getsAskedFor_iff {w' w'' : World} {found : Option ObjId}
    (hsought : Sought w src arg w'' found) (hnames : w.names = dataNames)
    (hbattery : w.loc .battCar ≠ none → w.loc .battEmpty = none)
    (hloc : w'.loc = w.gotten w''.loc found) :
    GetsAskedFor w w' src arg ↔ (CarLoaded w src → strcasecmp "battery" arg) := by
  cases hsought with
  | nothing hcar _ _ => exact iff_of_true (getsAskedFor_of_loc hloc) fun h => absurd h hcar
  | lying o hcar ho hcalled =>
      refine iff_of_true ?_ fun h => absurd h hcar
      rw [World.gotten] at hloc
      split at hloc
      case isTrue => exact getsAskedFor_of_loc hloc
      case isFalse htux =>
          refine getsAskedFor_of_update hloc (fun _ => id) hcalled (.lying o ho fun heq => ?_)
          by_contra hlured
          exact htux ⟨heq, hlured⟩
  | desk o hbook hdesk =>
      refine iff_of_true ?_ fun h => absurd (hdesk.1.symm.trans h.1) (by decide)
      obtain ⟨-, -, hwhich⟩ := id hdesk
      have hname : o ≠ .tux ∧ dataNames o = some "book" := by
        rcases hwhich with ⟨rfl, -⟩ | ⟨rfl, -⟩
        · exact ⟨by decide, rfl⟩
        · exact ⟨by decide, rfl⟩
      rw [World.gotten, if_neg fun htux => hname.1 htux.1] at hloc
      exact getsAskedFor_of_update hloc (fun _ => id) ((called_iff hnames hname.2).mpr hbook) (.desk o hdesk)
  | battery hcar hm =>
      have hname : dataNames .battEmpty = some "battery" := rfl
      have hloc : w'.loc = Function.update (Function.update w.loc .battCar none) .battEmpty
          (some .inventory) := hm.loc ▸ hloc
      constructor
      · intro h _
        have hcalled : w.Called .battEmpty arg := by
          refine h.taken .battEmpty ?_ ?_
          · rw [hbattery (by rw [hcar.2]; exact nofun)]
            exact nofun
          · rw [hloc, Function.update_self]
        exact (called_iff hnames hname).mp hcalled
      · intro harg
        refine getsAskedFor_of_update hloc (fun o ho => ?_) ((called_iff hnames hname).mpr (harg hcar))
          (.battery hcar.1 hcar.2)
        by_cases ho' : o = .battCar
        · subst ho'
          rw [Function.update_self] at ho
          cases ho
        · rwa [Function.update_of_ne ho'] at ho

end Search

/-! ## The main result -/

section Games

variable {readPhoto : String → Option Photo} {readObjImage : String → Option Image}
  {rand : ObjId → Nat → Nat} {w : World} {g : Game} {actions : List (Action × (Nat → Nat))}

/-- **`get` takes what was asked for, exactly if there is no battery in the car or it was asked for.**  In
every state of every game, for every argument, `src` being the room in which the player stands. -/
theorem get_takes_asked_for_iff (hbuild : buildWorld readPhoto readObjImage rand = some (.ok w))
    (hrun : Run Plays (startGame w) actions g) {r : RoomId} (hroom : g.room = some r) (arg : String)
    (rand' : Nat → Nat) :
    ∃ src reply, g.world.standing r = some src ∧ typedCmdGet g.world r arg rand' = some reply ∧
      (GetsAskedFor g.world reply.world src arg ↔
        (src = .carSite ∧ g.world.loc .battCar = some src → strcasecmp "battery" arg)) := by
  obtain ⟨src, -, hconserved, hepisode, -⟩ := Told.of_run hbuild hrun
  have h := hepisode r hroom
  obtain ⟨reply, w', found, hreply, hsought, hloc⟩ := typedCmdGet_loc h.toReady h.stands arg rand'
  refine ⟨src, reply, h.stands, hreply, hsought.getsAskedFor_iff (names_of_run hbuild hrun) ?_ hloc⟩
  intro hcar
  by_contra hempty
  exact (hconserved.battery_car hcar).1 hempty

/-- The player has opened the car; `get` takes the battery out of it, whichever of the two is asked for. -/
theorem opened_car : ∃ w g,
    buildWorld (fun _ => some plainPhoto) (fun _ => some plainImage) (fun _ _ => 0) = some (.ok w) ∧
    Run Plays (startGame w) ((walkthrough.take 92).map fun a => (a, fun _ => 0)) g ∧
    g.room = some .carSite ∧ g.world.standing .carSite = some .carSite ∧ g.world.loc .battEmpty = none ∧
    ∀ arg ∈ ["battery", "fish"], ∃ reply, typedCmdGet g.world .carSite arg (fun _ => 0) = some reply ∧
      reply.world.loc .battEmpty = some .inventory := by
  obtain ⟨w, hbuild⟩ := plain_world_builds
  have hplayed : ((buildWorld (fun _ => some plainPhoto) (fun _ => some plainImage)
      (fun _ _ => 0)).any fun built => built.toOption.any fun w =>
        (playAll (startGame w) (walkthrough.take 92)).any fun g =>
          decide (g.room = some .carSite ∧ g.world.standing .carSite = some .carSite ∧
            g.world.loc .battEmpty = none) &&
          ["battery", "fish"].all fun arg => (typedCmdGet g.world .carSite arg fun _ => 0).any fun reply =>
            decide (reply.world.loc .battEmpty = some .inventory)) = true := by decide +kernel
  rw [hbuild] at hplayed
  change (playAll (startGame w) (walkthrough.take 92)).any (fun g =>
    decide (g.room = some .carSite ∧ g.world.standing .carSite = some .carSite ∧
      g.world.loc .battEmpty = none) &&
    ["battery", "fish"].all fun arg => (typedCmdGet g.world .carSite arg fun _ => 0).any fun reply =>
      decide (reply.world.loc .battEmpty = some .inventory)) = true at hplayed
  obtain ⟨g, hg, hplayed⟩ := (Option.any_eq_true _ _).mp hplayed
  obtain ⟨hbefore, hplayed⟩ := Bool.and_eq_true_iff.mp hplayed
  obtain ⟨hroom, hstands, hnone⟩ := of_decide_eq_true hbefore
  refine ⟨w, g, hbuild, run_of_playAll hg, hroom, hstands, hnone, fun arg harg => ?_⟩
  obtain ⟨reply, hreply, hafter⟩ := (Option.any_eq_true _ _).mp (List.all_eq_true.mp hplayed arg harg)
  exact ⟨reply, hreply, of_decide_eq_true hafter⟩

/-- The player opens the car and asks for the battery. -/
theorem get_battery_takes_battery : ∃ w g reply,
    buildWorld (fun _ => some plainPhoto) (fun _ => some plainImage) (fun _ _ => 0) = some (.ok w) ∧
    Run Plays (startGame w) ((walkthrough.take 92).map fun a => (a, fun _ => 0)) g ∧
    g.room = some .carSite ∧ typedCmdGet g.world .carSite "battery" (fun _ => 0) = some reply ∧
    g.world.loc .battEmpty = none ∧ reply.world.loc .battEmpty = some .inventory ∧
    GetsAskedFor g.world reply.world .carSite "battery" := by
  obtain ⟨w, g, hbuild, hrun, hroom, hstands, hnone, htaken⟩ := opened_car
  obtain ⟨reply, hreply, hafter⟩ := htaken "battery" (by simp)
  obtain ⟨src, reply', hsrc, hreply', hiff⟩ :=
    get_takes_asked_for_iff hbuild hrun hroom "battery" fun _ => 0
  obtain rfl := Option.some.inj (hstands.symm.trans hsrc)
  obtain rfl := Option.some.inj (hreply.symm.trans hreply')
  exact ⟨w, g, reply, hbuild, hrun, hroom, hreply, hnone, hafter, hiff.mpr fun _ => by decide⟩

/-- The player opens the car and asks for a fish. -/
theorem get_fish_takes_battery : ∃ w g reply,
    buildWorld (fun _ => some plainPhoto) (fun _ => some plainImage) (fun _ _ => 0) = some (.ok w) ∧
    Run Plays (startGame w) ((walkthrough.take 92).map fun a => (a, fun _ => 0)) g ∧
    g.room = some .carSite ∧ typedCmdGet g.world .carSite "fish" (fun _ => 0) = some reply ∧
    g.world.loc .battEmpty = none ∧ reply.world.loc .battEmpty = some .inventory ∧
    g.world.names .battEmpty = some "battery" ∧ ¬GetsAskedFor g.world reply.world .carSite "fish" := by
  obtain ⟨w, g, hbuild, hrun, hroom, -, hnone, htaken⟩ := opened_car
  obtain ⟨reply, hreply, hafter⟩ := htaken "fish" (by simp)
  have hnames := names_of_run hbuild hrun
  refine ⟨w, g, reply, hbuild, hrun, hroom, hreply, hnone, hafter, by rw [hnames]; rfl, fun h => ?_⟩
  have hcalled := h.taken .battEmpty (by rw [hnone]; exact nofun) hafter
  rw [called_iff hnames (show dataNames .battEmpty = some "battery" from rfl)] at hcalled
  exact absurd hcalled (by decide)

end Games

end Ece391.Adventure
