/-
# Ece391.Adventure.Outcome — what an action can do.

One theorem, `act_outcome`, goes through the seventeen commands of `world.c`; everything that is proved of
the game is a case analysis of what it says.  An action of a player who sees room `r` and stands in `here`
has an `Outcome`: they stay, and a turn of the plot is made; or they leave by an exit, by a door that opens
for them, or in the car; or they look into the inventory, or back; or they win.

Who stays may find the world changed, by `Edits`: an object is moved, a flag set, a photo swapped, the plane
made ready.  What is the same after each edit is the same after every action.  The value returned goes with
the change: without a redraw everything lies where it was, and without a change of rooms the photo is the
same (`Pictured`).
-/
import Ece391.Adventure.Lists
import Ece391.Adventure.Plot

open Ece391.Lib

namespace Ece391.Adventure

/-! ## The search of `typed_cmd_get` -/

def World.names (w : World) (o : ObjId) : Option String := (w.object o).name

/-- The object is called what was asked for, up to letter case. -/
def World.Called (w : World) (o : ObjId) (arg : String) : Prop := (w.names o).any (strcasecmp arg) = true

/-- The reference desk has the book to hand out: the one for players who have eaten, or the other one. -/
def AtDesk (w : World) (src : RoomId) (o : ObjId) : Prop :=
  src = .reserve ∧ w.loc o = none ∧ (o = .bookC ∧ w.flags .hasEaten ∨ o = .bookWode ∧ ¬w.flags .hasEaten)

/-- The car site, with the battery still in the car. -/
def CarLoaded (w : World) (src : RoomId) : Prop := src = .carSite ∧ w.loc .battCar = some src

/-- **`Sought w src arg w' o`** — the search finds `o` and leaves the world `w'`. -/
inductive Sought (w : World) (src : RoomId) (arg : String) : World → Option ObjId → Prop
  | nothing : ¬CarLoaded w src → (∀ o, w.loc o = some src → ¬w.Called o arg) →
      (strcasecmp "book" arg → ∀ o, ¬AtDesk w src o) → Sought w src arg w none
  | lying (o : ObjId) : ¬CarLoaded w src → w.loc o = some src → w.Called o arg →
      Sought w src arg w (some o)
  | desk (o : ObjId) : strcasecmp "book" arg → AtDesk w src o → Sought w src arg w (some o)
  | battery {w' : World} : CarLoaded w src → Moves w .battCar none w' →
      Sought w src arg w' (some .battEmpty)

section Search

variable {w : World} {src : RoomId} {arg : String}

/-- What `find_in_room` finds. -/
theorem Sound.findInRoom (h : Sound w) (src : RoomId) (arg : String) :
    ∃ found, w.findInRoom src arg = some found ∧
      (found = none → ∀ o, w.loc o = some src → ¬w.Called o arg) ∧
      ∀ o, found = some o → w.loc o = some src ∧ w.Called o arg := by
  obtain ⟨l, hchain, hnd, hmem⟩ := h.listed src
  refine ⟨_, findFrom_eq _ hchain (length_le_nObjects hnd), fun hnone o ho => ?_, fun o ho => ?_⟩
  · exact List.find?_eq_none.mp hnone o ((hmem o).mpr ho)
  · have hcalled := List.find?_some (p := fun o => (w.object o).name.any (strcasecmp arg)) ho
    exact ⟨(hmem o).mp (List.mem_of_find?_eq_some ho), hcalled⟩

/-- The reference desk hands out a book, or the search goes on at the car. -/
theorem objSpecialGet_cases (w : World) (src : RoomId) (arg : String) :
    (∃ o shown, w.objSpecialGet src arg = some (w, some o, shown) ∧ strcasecmp "book" arg ∧ AtDesk w src o) ∨
    w.objSpecialGet src arg = w.carBattery src ∧ (strcasecmp "book" arg → ∀ o, ¬AtDesk w src o) := by
  unfold World.objSpecialGet
  split
  case isFalse hother =>
      exact .inr ⟨rfl, fun hbook o ho => hother ⟨ho.1, hbook⟩⟩
  case isTrue hdesk =>
      split
      case isTrue heaten =>
          split
          case isTrue hbookC => exact .inl ⟨_, _, rfl, hdesk.2, hdesk.1, hbookC, .inl ⟨rfl, heaten⟩⟩
          case isFalse hbookC =>
              refine .inr ⟨rfl, ?_⟩
              rintro - o ⟨-, hloc, ⟨rfl, -⟩ | ⟨-, hnot⟩⟩
              · exact hbookC hloc
              · exact hnot heaten
      case isFalse heaten =>
          split
          case isTrue hbookWode => exact .inl ⟨_, _, rfl, hdesk.2, hdesk.1, hbookWode, .inr ⟨rfl, heaten⟩⟩
          case isFalse hbookWode =>
              refine .inr ⟨rfl, ?_⟩
              rintro - o ⟨-, hloc, ⟨-, hflag⟩ | ⟨rfl, -⟩⟩
              · exact heaten hflag
              · exact hbookWode hloc

/-- **What the search finds.** -/
theorem Sound.seek (h : Sound w) (src : RoomId) (arg : String) :
    ∃ w' found shown, w.seek src arg = some (w', found, shown) ∧ Sought w src arg w' found := by
  rcases objSpecialGet_cases w src arg with ⟨o, shown, hget, hbook, hdesk⟩ | ⟨hget, hdesk⟩
  · rw [World.seek, hget]
    exact ⟨w, some o, shown, rfl, .desk o hbook hdesk⟩
  · rw [World.seek, hget, World.carBattery]
    split
    next hcar =>
      obtain ⟨w', hw', hm⟩ := h.listed.removeObject .battCar
      rw [hw']
      exact ⟨w', some .battEmpty, [], rfl, .battery hcar hm⟩
    next hcar =>
      obtain ⟨found, hfound, hnone, hsome⟩ := h.findInRoom src arg
      refine ⟨w, found, [], by rw [Option.bind_some]; simp only [hfound, Option.map_some], ?_⟩
      cases found with
      | none => exact .nothing hcar (hnone rfl) hdesk
      | some o => exact .lying o hcar (hsome o rfl).1 (hsome o rfl).2

/-- The search keeps the world sound. -/
theorem Sought.sound {w' : World} {found : Option ObjId} (h : Sought w src arg w' found) (hw : Sound w) :
    Sound w' ∧ w'.flags = w.flags := by
  cases h with
  | battery _ hm => exact ⟨hw.moves hm, hm.flags⟩
  | _ => exact ⟨hw, rfl⟩

end Search

/-! ## Edits -/

/-- Neither the board nor the jetpack. -/
def Ordinary (o : ObjId) : Prop := o ≠ .board ∧ o ≠ .jetpack

instance (o : ObjId) : Decidable (Ordinary o) := by unfold Ordinary; infer_instance

/-- Whatever it is, `get` brings it to the inventory and `drop` somewhere else. -/
def Action.Carries (l : Option RoomId) : Action → Prop
  | .typed .get _ => l = some .inventory
  | .typed .drop _ => l ≠ some .inventory
  | _ => False

/-- **`Edit a w w'`** — one thing the action `a` does to the world. -/
inductive Edit (a : Action) (w : World) : World → Prop
  | move {o : ObjId} {l : Option RoomId} {w' : World} : Ordinary o ∨ a.Carries l → Moves w o l w' → Edit a w w'
  | setFlag (f : Flag) : Edit a w (w.setFlag f)
  | swap (r : RoomId) (which : SwapId) : Edit a w (w.doPhotoSwap r which)
  | takeoff : Edit a w (w.setRoom .cockpit fun b => { b with enter := some .overWill })

abbrev Edits (a : Action) : World → World → Prop := Relation.ReflTransGen (Edit a)

/-- What every edit keeps, all of them keep. -/
theorem Edits.invariant {a : Action} {I : World → Prop} {w w' : World} (h : Edits a w w')
    (hstep : ∀ w w', I w → Edit a w w' → I w') (hw : I w) : I w' := by
  induction h with
  | refl => exact hw
  | tail _ hlast ih => exact hstep _ _ ih hlast

theorem Edit.ready {a : Action} {w w' : World} {r : RoomId} (h : Ready w r) (he : Edit a w w') :
    Ready w' r := by
  cases he with
  | move _ hm => exact ⟨h.toSound.moves hm, fun hr => by rw [hm.enter]; exact h.placed hr⟩
  | setFlag f => exact ⟨h.toSound.setFlag f, h.placed⟩
  | swap r' which =>
      refine ⟨h.toSound.doPhotoSwap r' which, fun hr => ?_⟩
      rw [doPhotoSwap_room, setRoom_field w r' Room.enter rfl]
      exact h.placed hr
  | takeoff =>
      refine ⟨h.toSound.setEnter .cockpit nofun, fun hr => ?_⟩
      rw [setRoom_room_of_ne w .cockpit .inventory _ nofun]
      exact h.placed hr

theorem Edits.ready {a : Action} {w w' : World} {r : RoomId} (he : Edits a w w') (h : Ready w r) :
    Ready w' r := he.invariant (fun _ _ h he => he.ready h) h

/-- An arrival edits the world at most by the photo of the Boneyard Circle. -/
theorem Edits.arrive (a : Action) (w : World) (dest : RoomId) (rand : Nat → Nat) :
    Edits a w (Adventure.arrive w dest rand).world := by
  unfold Adventure.arrive
  dsimp only
  split
  · exact .single (.swap dest .circle)
  · exact .refl

/-! ## Outcomes -/

/-- **`Pictured a w r w' action`** — the value returned goes with what has changed. -/
structure Pictured (a : Action) (w : World) (r : RoomId) (w' : World) (action : TcAction) : Prop where
  view : action ≠ .changeRoom → (w'.room r).view = (w.room r).view
  same : action ≠ .changeRoom → action ≠ .redrawRoom → w'.room = w.room ∧ w'.object = w.object
  typed : action = .redrawRoom → ∃ verb arg, a = .typed verb arg

/-- The room has an exit to another one. -/
def World.Exit (w : World) (r dest : RoomId) : Prop :=
  (w.room r).left = some dest ∨ (w.room r).enter = some dest ∨ (w.room r).right = some dest

/-- **`Outcome a w r here reply`** — what the action `a` can do for a player who sees `r` and stands in
`here`. -/
inductive Outcome (a : Action) (w : World) (r here : RoomId) : Reply → Prop
  | stay {w' : World} {action : TcAction} {status : List String} : Edits a w w' →
      Turn here w.plot w'.plot → Pictured a w r w' action → Outcome a w r here ⟨w', some r, action, status⟩
  | arrive {dest : RoomId} (rand : Nat → Nat) : w.Exit r dest →
      Outcome a w r here (Adventure.arrive w dest rand)
  | walk {dest : RoomId} {status : List String} : Walk w.plot here dest → dest ≠ .inventory →
      Outcome a w r here ⟨w, some dest, .changeRoom, status⟩
  | look : r ≠ .inventory → Outcome a w r here
      ⟨w.setRoom .inventory fun b => { b with enter := some r }, some .inventory, .changeRoom, []⟩
  | back : r = .inventory → Outcome a w r here ⟨w, some here, .changeRoom, []⟩
  | win {arg : String} : a = .typed .do arg → w.loc .bookC = some .inventory →
      w.loc .tux = some .in391lab → Outcome a w r here ⟨w, none, .changeRoom, []⟩

/-- The action ends, with such a reply. -/
def Acts (a : Action) (w : World) (r here : RoomId) (x : Option Reply) : Prop :=
  ∃ reply, x = some reply ∧ Outcome a w r here reply

theorem Acts.ite {a : Action} {w : World} {r here : RoomId} {c : Prop} [Decidable c] {x y : Option Reply}
    (hx : c → Acts a w r here x) (hy : ¬ c → Acts a w r here y) :
    Acts a w r here (if c then x else y) := by
  split
  next hc => exact hx hc
  next hc => exact hy hc

/-! ### In the middle of an action -/

/-- **`Amid a w r p w'`** — the world is `w'` now, with the plot at `p`; only the car site may show another
photo than before. -/
structure Amid (a : Action) (w : World) (r : RoomId) (p : Plot) (w' : World) : Prop where
  edits : Edits a w w'
  ready : Ready w' r
  plot : w'.plot = p
  view : r ≠ .carSite → (w'.room r).view = (w.room r).view

namespace Amid

variable {a : Action} {w w' : World} {r here : RoomId} {p : Plot}

theorem start (h : Ready w r) : Amid a w r w.plot w := ⟨.refl, h, rfl, fun _ => rfl⟩

theorem move (h : Amid a w r p w') {o : ObjId} {l : Option RoomId} (ho : Ordinary o ∨ a.Carries l)
    {w'' : World} (hm : Moves w' o l w'') : Amid a w r (p.move o l) w'' where
  edits := h.edits.tail (.move ho hm)
  ready := (Edit.move ho hm).ready h.ready
  plot := by
    rw [← h.plot]
    simp only [World.plot, Plot.move, hm.loc, hm.flags, hm.enter, hm.view, hm.swapPhoto]
  view hr := (hm.view r).trans (h.view hr)

/-- An operation that moves an object, and what follows it. -/
theorem bind (h : Amid a w r p w') {o : ObjId} {l : Option RoomId} (ho : Ordinary o ∨ a.Carries l)
    {x : Option World} {f : World → Option Reply} (hx : ∃ w1, x = some w1 ∧ Moves w' o l w1)
    (hf : ∀ w1, Amid a w r (p.move o l) w1 → Acts a w r here (f w1)) : Acts a w r here (x >>= f) := by
  obtain ⟨w1, rfl, hm⟩ := hx
  exact hf w1 (h.move ho hm)

theorem remove (h : Amid a w r p w') {o : ObjId} (ho : Ordinary o) {f : World → Option Reply}
    (hf : ∀ w1, Amid a w r (p.move o none) w1 → Acts a w r here (f w1)) :
    Acts a w r here (w'.removeObject o >>= f) :=
  h.bind (.inl ho) (h.ready.listed.removeObject o) hf

theorem take (h : Amid a w r p w') {o : ObjId} (ho : Ordinary o) (rand : Nat → Nat)
    {f : World → Option Reply}
    (hf : ∀ w1, Amid a w r (p.move o (some .inventory)) w1 → Acts a w r here (f w1)) :
    Acts a w r here (w'.moveObjectToInventory o rand >>= f) :=
  h.bind (.inl ho) (h.ready.listed.placeInInventory o rand (h.ready.view _) (h.ready.img o) World.inventoryGrid) hf

theorem setFlag (h : Amid a w r p w') (f : Flag) : Amid a w r (p.mark f) (w'.setFlag f) where
  edits := h.edits.tail (.setFlag f)
  ready := (Edit.setFlag (a := a) f).ready h.ready
  plot := by
    rw [← h.plot]
    rfl
  view := h.view

theorem swapCar (h : Amid a w r p w') : Amid a w r p.swapCar (w'.doPhotoSwap .carSite .car) where
  edits := h.edits.tail (.swap .carSite .car)
  ready := (Edit.swap (a := a) .carSite .car).ready h.ready
  plot := by
    rw [← h.plot]
    rfl
  view hr := by
    rw [doPhotoSwap_room, setRoom_room_of_ne _ _ _ _ hr]
    exact h.view hr

theorem takeoff (h : Amid a w r p w') :
    Amid a w r p.link (w'.setRoom .cockpit fun b => { b with enter := some .overWill }) where
  edits := h.edits.tail .takeoff
  ready := (Edit.takeoff (a := a)).ready h.ready
  plot := by
    rw [← h.plot]
    rfl
  view hr := by
    rw [setRoom_field w' .cockpit Room.view rfl]
    exact h.view hr

/-! ### How an action ends -/

/-- The room is entered anew. -/
theorem change (h : Amid a w r p w') (ht : Turn here w.plot p) (status : List String) :
    Acts a w r here (some ⟨w', some r, .changeRoom, status⟩) :=
  ⟨_, rfl, .stay h.edits (h.plot ▸ ht) ⟨fun hnot => absurd rfl hnot, fun hnot => absurd rfl hnot, nofun⟩⟩

/-- The room is drawn again. -/
theorem redraw {verb : Verb} {arg : String} (h : Amid (.typed verb arg) w r p w') (ht : Turn here w.plot p)
    (hcar : p.carView = w.plot.carView) (status : List String) :
    Acts (.typed verb arg) w r here (some ⟨w', some r, .redrawRoom, status⟩) := by
  refine ⟨_, rfl, .stay h.edits (h.plot ▸ ht) ⟨fun _ => ?_, fun _ hnot => absurd rfl hnot, fun _ => ?_⟩⟩
  case refine_2 => exact ⟨verb, arg, rfl⟩
  by_cases hr : r = .carSite
  · subst hr
    exact (congrArg Plot.carView h.plot).trans hcar
  · exact h.view hr

end Amid

section Actions

variable {a : Action} {w : World} {r here : RoomId} {verb : Verb} {arg : String}

/-- A move that leads nowhere. -/
theorem blocked (message : String) : Acts a w r here (say w r .allowEdit message) :=
  ⟨_, rfl, .stay .refl .idle ⟨fun _ => rfl, fun _ _ => ⟨rfl, rfl⟩, nofun⟩⟩

/-- The player stays, and only a flag has changed. -/
theorem flagged (w w' : World) (hroom : w'.room = w.room) (hobject : w'.object = w.object)
    (he : Edits (.typed verb arg) w w') (ht : Turn here w.plot w'.plot) (action : TcAction)
    (status : List String) : Acts (.typed verb arg) w r here (some ⟨w', some r, action, status⟩) :=
  ⟨_, rfl, .stay he ht ⟨fun _ => by rw [hroom], fun _ _ => ⟨hroom, hobject⟩, fun _ => ⟨_, _, rfl⟩⟩⟩

theorem stays (action : TcAction) (status : List String) :
    Acts (.typed verb arg) w r here (some ⟨w, some r, action, status⟩) :=
  flagged w w rfl rfl .refl .idle action status

theorem said (action : TcAction) (message : String) :
    Acts (.typed verb arg) w r here (say w r action message) := stays action [message]

/-- `player_set_flag (FLAG_HAS_EATEN)`. -/
theorem eaten (action : TcAction) (message : String) :
    Acts (.typed verb arg) w r here (say (w.setFlag .hasEaten) r action message) :=
  flagged w (w.setFlag .hasEaten) rfl rfl (.single (.setFlag .hasEaten)) .eat action [message]

/-- The player goes through a door. -/
theorem goes {dest : RoomId} (hw : Walk w.plot here dest) (hdest : dest ≠ .inventory) (status : List String) :
    Acts a w r here (some ⟨w, some dest, .changeRoom, status⟩) :=
  ⟨_, rfl, .walk hw hdest⟩

/-! ### Where the player stands -/

theorem Ready.standing (h : Ready w r) : ∃ dest, w.standing r = some dest := by
  unfold World.standing
  split
  next hr =>
    cases henter : (w.room .inventory).enter with
    | none => exact absurd henter (h.placed hr)
    | some dest => exact ⟨dest, rfl⟩
  next => exact ⟨r, rfl⟩

/-- The room seen is the one the player stands in, except for the inventory. -/
theorem here_eq (hstands : w.standing r = some here) (hr : r ≠ .inventory) : r = here := by
  rw [World.standing, if_neg hr] at hstands
  exact Option.some.inj hstands

theorem Sound.here_ne (h : Sound w) (hstands : w.standing r = some here) : here ≠ .inventory := by
  unfold World.standing at hstands
  split at hstands
  · rintro rfl
    exact h.enter _ hstands
  next hr =>
    obtain rfl := Option.some.inj hstands
    exact hr

theorem has_of_loc {o : ObjId} {l : RoomId} (ho : w.loc o = some l) : w.plot.Has o := by
  show w.loc o ≠ none
  rw [ho]
  exact Option.some_ne_none _

theorem has_of_atHand {o : ObjId} (ho : w.AtHand o r) : w.plot.Has o := ho.elim has_of_loc has_of_loc

/-! ## Moves -/

theorem tryToMoveLeft_acts (rand : Nat → Nat) : Acts a w r here (tryToMoveLeft w r rand) := by
  unfold tryToMoveLeft
  split
  next dest hdest => exact ⟨_, rfl, .arrive rand (.inl hdest)⟩
  next => exact blocked _

theorem tryToMoveRight_acts (rand : Nat → Nat) : Acts a w r here (tryToMoveRight w r rand) := by
  unfold tryToMoveRight
  split
  next dest hdest => exact ⟨_, rfl, .arrive rand (.inr (.inr hdest))⟩
  next => exact blocked _

theorem swipe_acts {dest : RoomId} (hw : Walk w.plot here dest) (hdest : dest ≠ .inventory) :
    Acts a w r here (swipe w r dest) :=
  .ite (fun _ => goes hw hdest _) fun _ => blocked _

theorem tryToEnter_acts (rand : Nat → Nat) : Acts a w r here (tryToEnter w r rand) := by
  unfold tryToEnter
  split
  next dest hdest => exact ⟨_, rfl, .arrive rand (.inr (.inl hdest))⟩
  next =>
    refine .ite (fun _ => .ite (fun hsuit => ?_) fun _ => blocked _) fun _ => ?_
    · exact goes (.cleanroom hsuit) nofun _
    refine .ite (fun _ => swipe_acts .lab395 nofun) fun _ => .ite (fun _ => swipe_acts .csl nofun) fun _ => ?_
    refine .ite (fun _ => .ite (fun _ => goes .beckman nofun _) fun _ => ?_) fun _ => ?_
    · exact .ite (fun _ => blocked _) fun _ => blocked _
    exact .ite (fun _ => blocked _) fun _ => .ite (fun _ => blocked _) fun _ => blocked _

/-! ## Typed commands -/

theorem typedCmdBuy_acts (h : Ready w r) (rand : Nat → Nat) :
    Acts (.typed .buy arg) w r here (typedCmdBuy w r arg rand) := by
  unfold typedCmdBuy
  refine .ite (fun _ => ?_) fun _ => .ite (fun _ => ?_) fun _ => said _ _
  · refine .ite (fun _ => said _ _) fun _ => .ite (fun _ => said _ _) fun _ => ?_
    exact (Amid.start h).take (by decide) rand fun _ h => h.redraw (.dew _) rfl _
  · exact .ite (fun _ => said _ _) fun _ => .ite (fun _ => said _ _) fun _ => eaten _ _

theorem typedCmdCharge_acts (h : Ready w r) (rand : Nat → Nat) :
    Acts (.typed .charge arg) w r here (typedCmdCharge w r arg rand) := by
  unfold typedCmdCharge
  refine .ite (fun _ => said _ _) fun _ => .ite (fun _ => said _ _) fun hbattery => ?_
  refine .ite (fun _ => said _ _) fun _ => .ite (fun _ => said _ _) fun hfull => ?_
  have hempty : w.AtHand .battEmpty r := by
    by_contra hempty
    exact hbattery ⟨hempty, hfull⟩
  refine (Amid.start h).remove (by decide) fun _ h => h.take (by decide) rand fun _ h => ?_
  exact h.redraw (.charge (has_of_atHand hempty)) rfl _

theorem typedCmdDo_acts : Acts (.typed .do arg) w r here (typedCmdDo w r arg) := by
  unfold typedCmdDo
  refine .ite (fun _ => said _ _) fun _ => .ite (fun _ => said _ _) fun _ => ?_
  refine .ite (fun _ => said _ _) fun hbook => .ite (fun _ => said _ _) fun _ => ?_
  refine .ite (fun _ => said _ _) fun htux => ?_
  exact ⟨_, rfl, .win rfl (not_not.mp hbook) (not_not.mp htux)⟩

theorem typedCmdDrink_acts (h : Ready w r) : Acts (.typed .drink arg) w r here (typedCmdDrink w r arg) := by
  unfold typedCmdDrink
  refine .ite (fun _ => said _ _) fun _ => .ite (fun _ => said _ _) fun _ => ?_
  exact (Amid.start h).remove (by decide) fun _ h => h.redraw (.dew _) rfl _

theorem typedCmdDrop_acts (h : Ready w r) (hstands : w.standing r = some here) (rand : Nat → Nat) :
    Acts (.typed .drop arg) w r here (typedCmdDrop w r arg rand) := by
  obtain ⟨found, hfound, -, hsome⟩ := h.toSound.findInRoom .inventory arg
  unfold typedCmdDrop
  rw [hfound, hstands]
  cases found with
  | none => exact said _ _
  | some o =>
      have hdest : (Action.typed .drop arg).Carries (some here) := fun heq =>
        h.here_ne hstands (Option.some.inj heq)
      refine (Amid.start h).bind (.inr hdest) (h.listed.insertObject o here rand (h.view here) (h.img o)) ?_
      exact fun _ h => h.redraw (.put o (hsome o rfl).1) rfl _

theorem typedCmdFix_acts (h : Ready w r) (hstands : w.standing r = some here) (rand : Nat → Nat) :
    Acts (.typed .fix arg) w r here (typedCmdFix w r arg rand) := by
  unfold typedCmdFix
  refine .ite (fun _ => said _ _) fun _ => .ite (fun _ => said _ _) fun _ => ?_
  refine .ite (fun _ => said _ _) fun hbad => .ite (fun _ => said _ _) fun hroom => ?_
  refine .ite (fun _ => said _ _) fun hspec => ?_
  obtain rfl := not_not.mp hroom
  obtain rfl := here_eq hstands nofun
  have hturn := Turn.fix rfl (has_of_atHand (not_not.mp hbad)) (has_of_atHand (not_not.mp hspec))
  refine (Amid.start h).remove (by decide) fun _ h => h.remove (by decide) fun _ h => ?_
  exact h.take (by decide) rand fun _ h => h.change hturn _

theorem typedCmdFlash_acts (h : Ready w r) (rand : Nat → Nat) :
    Acts (.typed .flash arg) w r here (typedCmdFlash w r arg rand) := by
  unfold typedCmdFlash
  refine .ite (fun _ => said _ _) fun _ => .ite (fun _ => said _ _) fun hrobot => ?_
  refine .ite (fun _ => said _ _) fun _ => .ite (fun _ => said _ _) fun hlive => ?_
  have hdead : w.AtHand .robotDead r := by
    by_contra hdead
    exact hrobot ⟨hdead, hlive⟩
  refine (Amid.start h).remove (by decide) fun _ h => h.take (by decide) rand fun _ h => ?_
  exact h.redraw (.flash (has_of_atHand hdead)) rfl _

theorem typedCmdGo_acts : Acts (.typed .go arg) w r here (typedCmdGo w r arg) := by
  unfold typedCmdGo
  refine .ite (fun _ => ?_) fun _ => .ite (fun _ => ?_) fun _ => .ite (fun _ => ?_) fun _ => said _ _
  · refine .ite (fun _ => said _ _) fun _ => .ite (fun _ => said _ _) fun _ => ?_
    refine .ite (fun _ => said _ _) fun hfixed => .ite (fun _ => said _ _) fun hgps => ?_
    exact goes (.allerton (not_not.mp hfixed) (has_of_loc (not_not.mp hgps))) nofun _
  · refine .ite (fun _ => said _ _) fun _ => .ite (fun _ => said _ _) fun _ => ?_
    exact .ite (fun _ => said _ _) fun hfixed => goes (.willard (not_not.mp hfixed)) nofun _
  · refine .ite (fun _ => said _ _) fun _ => .ite (fun _ => said _ _) fun _ => ?_
    exact goes .campus nofun _

theorem typedCmdInstall_acts (h : Ready w r) (hstands : w.standing r = some here) :
    Acts (.typed .install arg) w r here (typedCmdInstall w r arg) := by
  unfold typedCmdInstall
  refine .ite (fun _ => ?_) fun _ => .ite (fun _ => ?_) fun _ => said _ _
  · refine .ite (fun _ => said _ _) fun hbattery => .ite (fun _ => said _ _) fun hroom => ?_
    refine .ite (fun _ => said _ _) fun hempty => ?_
    obtain rfl := not_not.mp hroom
    have hfull : w.AtHand .battFull .carSite := by
      by_contra hfull
      exact hbattery ⟨hempty, hfull⟩
    -- the car is closed: the photo is another one, so the room is entered anew
    exact (Amid.start h).remove (by decide) fun _ h =>
      (h.setFlag .carFixed).swapCar.change (.fixCar (has_of_atHand hfull)) _
  · refine .ite (fun _ => said _ _) fun hmimo => .ite (fun _ => said _ _) fun hroom => ?_
    obtain rfl := not_not.mp hroom
    obtain rfl := here_eq hstands nofun
    exact (Amid.start h).remove (by decide) fun _ h => h.takeoff.redraw (.link rfl (not_not.mp hmimo)) rfl _

theorem typedCmdInventory_acts (hstands : w.standing r = some here) :
    Acts a w r here (typedCmdInventory w r) := by
  unfold typedCmdInventory
  split
  next hr =>
    rw [World.standing, if_pos hr] at hstands
    refine ⟨_, rfl, ?_⟩
    rw [hr, hstands]
    exact .back rfl
  next hr => exact ⟨_, rfl, .look hr⟩

theorem typedCmdSigh_acts : Acts (.typed .sigh arg) w r here (typedCmdSigh w r) :=
  .ite (fun _ => said _ _) fun _ => eaten _ _

theorem typedCmdUse_acts (h : Ready w r) (hstands : w.standing r = some here) (rand : Nat → Nat) :
    Acts (.typed .use arg) w r here (typedCmdUse w r arg rand) := by
  unfold typedCmdUse
  refine .ite (fun _ => ?_) fun _ => .ite (fun _ => ?_) fun _ => said _ _
  · refine .ite (fun _ => said _ _) fun _ => .ite (fun _ => said _ _) fun _ => ?_
    refine .ite (fun _ => said _ _) fun hroom => .ite (fun _ => said _ _) fun hfixed => ?_
    refine .ite (fun _ => said _ _) fun hopen => .ite (fun _ => said _ _) fun hkey => ?_
    obtain rfl := not_not.mp hroom
    obtain rfl := here_eq hstands nofun
    have hturn := Turn.openCar (p := w.plot) rfl hfixed hopen (has_of_loc (not_not.mp hkey))
    -- the car is opened: the photo is another one, so the room is entered anew
    refine (Amid.start h).swapCar.remove (by decide) fun _ h => ?_
    exact h.bind (.inl (by decide)) (h.ready.listed.insertObjectAt .battCar .carSite 265 122) fun _ h =>
      (h.setFlag .carOpen).change hturn _
  · refine .ite (fun _ => said _ _) fun hfish => .ite (fun _ => said _ _) fun hroom => ?_
    obtain rfl := not_not.mp hroom
    obtain rfl := here_eq hstands nofun
    have hturn := Turn.lure rfl (has_of_atHand (not_not.mp hfish))
    refine (Amid.start h).remove (by decide) fun _ h => h.take (by decide) rand fun _ h => ?_
    exact (h.setFlag .luredTux).redraw hturn rfl _

theorem typedCmdWear_acts (h : Ready w r) : Acts (.typed .wear arg) w r here (typedCmdWear w r arg) := by
  unfold typedCmdWear
  refine .ite (fun _ => said _ _) fun _ => .ite (fun _ => said _ _) fun hsuit => ?_
  exact (Amid.start h).remove (by decide) fun _ h =>
    (h.setFlag .wearingSuit).redraw (.wear (has_of_atHand (not_not.mp hsuit))) rfl _

/-! ### `typed_cmd_get` -/

theorem typedCmdGet_acts (h : Ready w r) (hstands : w.standing r = some here) (rand : Nat → Nat) :
    Acts (.typed .get arg) w r here (typedCmdGet w r arg rand) := by
  obtain ⟨w', found, shown, hseek, hsought⟩ := h.toSound.seek here arg
  unfold typedCmdGet
  simp only [hstands, Option.bind_eq_bind, Option.bind_some, hseek]
  cases found with
  | none =>
      cases hsought
      exact stays _ _
  | some o =>
      refine .ite (fun htux => ?_) fun htux => ?_
      · -- Tux is not special: he was seen, and nothing has changed
        obtain rfl := htux.1
        cases hsought with
        | lying => exact stays _ _
        | desk _ _ hdesk =>
            obtain ⟨-, -, ⟨heq, -⟩ | ⟨heq, -⟩⟩ := hdesk
            · cases heq
            · cases heq
      · have hstart : ∀ {p' : Plot}, Amid (.typed .get arg) w r p' w' →
            Turn here w.plot (p'.move o (some .inventory)) → p'.carView = w.plot.carView →
            Acts (.typed .get arg) w r here (w'.moveObjectToInventory o rand >>= fun w =>
              some ⟨w, some r, .redrawRoom, shown⟩) := fun h ht hcar =>
          h.bind (.inr rfl) (h.ready.listed.placeInInventory o rand (h.ready.view _) (h.ready.img o)
            World.inventoryGrid) fun _ h => h.redraw ht hcar _
        cases hsought with
        | lying _ _ ho _ => exact hstart (.start h) (.take o ho fun heq => by_contra fun hn => htux ⟨heq, hn⟩) rfl
        | desk _ _ hdesk =>
            obtain ⟨-, -, ⟨rfl, heaten⟩ | ⟨rfl, -⟩⟩ := hdesk
            · exact hstart (.start h) (.borrowC heaten) rfl
            · exact hstart (.start h) .borrowWode rfl
        | battery hcar hm =>
            exact hstart ((Amid.start h).move (.inl (by decide)) hm) (.pull (has_of_loc hcar.2)) rfl

/-- **What an action can do.** -/
theorem act_outcome (h : Ready w r) (hstands : w.standing r = some here) (rand : Nat → Nat) (a : Action) :
    Acts a w r here (act w r rand a) := by
  cases a with
  | moveLeft => exact tryToMoveLeft_acts rand
  | enter => exact tryToEnter_acts rand
  | moveRight => exact tryToMoveRight_acts rand
  | typed verb arg =>
      cases verb with
      | buy => exact typedCmdBuy_acts h rand
      | charge => exact typedCmdCharge_acts h rand
      | «do» => exact typedCmdDo_acts
      | drink => exact typedCmdDrink_acts h
      | drop => exact typedCmdDrop_acts h hstands rand
      | fix => exact typedCmdFix_acts h hstands rand
      | flash => exact typedCmdFlash_acts h rand
      | get => exact typedCmdGet_acts h hstands rand
      | go => exact typedCmdGo_acts
      | install => exact typedCmdInstall_acts h hstands
      | inventory => exact typedCmdInventory_acts hstands
      | sigh => exact typedCmdSigh_acts
      | use => exact typedCmdUse_acts h hstands rand
      | wear => exact typedCmdWear_acts h

/-- Every action has a result. -/
theorem Ready.outcome (h : Ready w r) (rand : Nat → Nat) (a : Action) : ∃ here reply,
    w.standing r = some here ∧ act w r rand a = some reply ∧ Outcome a w r here reply := by
  obtain ⟨here, hstands⟩ := h.standing
  obtain ⟨reply, hreply, houtcome⟩ := act_outcome h hstands rand a
  exact ⟨here, reply, hstands, hreply, houtcome⟩

theorem Ready.outcome_of (h : Ready w r) {rand : Nat → Nat} {reply : Reply}
    (hreply : act w r rand a = some reply) :
    ∃ here, w.standing r = some here ∧ Outcome a w r here reply := by
  obtain ⟨here, reply', hstands, hreply', houtcome⟩ := h.outcome rand a
  obtain rfl := Option.some.inj (hreply'.symm.trans hreply)
  exact ⟨here, hstands, houtcome⟩

/-! ## What follows at once -/

/-- Whoever looks at the inventory after an action stands somewhere. -/
theorem Outcome.ready {reply : Reply} (ho : Outcome a w r here reply) (h : Ready w r)
    (hstands : w.standing r = some here) :
    Sound reply.world ∧ ∀ r', reply.room = some r' → Ready reply.world r' := by
  have hother : ∀ {w' : World}, Sound w' → ∀ {dest : RoomId}, dest ≠ .inventory →
      ∀ r', some dest = some r' → Ready w' r' := by
    rintro w' h' dest hdest r' ⟨⟩
    exact ⟨h', fun hr => absurd hr hdest⟩
  cases ho with
  | stay he _ _ =>
      have h' := he.ready h
      refine ⟨h'.toSound, ?_⟩
      rintro r' ⟨⟩
      exact h'
  | @arrive dest rand hexit =>
      have hdest : dest ≠ .inventory := by
        rintro rfl
        rcases hexit with hexit | hexit | hexit
        · exact h.left r hexit
        · exact h.enter r hexit
        · exact h.right r hexit
      have h' : Sound (Adventure.arrive w dest rand).world := ((Edits.arrive a w dest rand).ready h).toSound
      exact ⟨h', hother h' hdest⟩
  | walk _ hdest => exact ⟨h.toSound, hother h.toSound hdest⟩
  | look hr =>
      have h' := h.toSound.setEnter .inventory hr
      refine ⟨h', fun r' _ => ⟨h', fun _ => ?_⟩⟩
      rw [setRoom_room_self]
      exact nofun
  | back => exact ⟨h.toSound, hother h.toSound (h.here_ne hstands)⟩
  | win => exact ⟨h.toSound, nofun⟩

end Actions

end Ece391.Adventure
