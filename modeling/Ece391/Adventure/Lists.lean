/-
# Ece391.Adventure.Lists — the contents lists and the two splices.

The lists of a world are `Filed`: each room's is finite and free of repetitions and holds exactly the
objects whose `loc` is that room.  `remove_object` and `insert_object_at` are the two splices of the
library; `Moves` says all that they do, and nothing else in `world.c` writes a `next`, a `loc` or a
`contents`.

With the lists go the pointers the commands follow without a check: photos and images are never NULL,
and the room recorded in the inventory's `enter` is there whenever the player looks at the inventory
(`Ready`).
-/
import Ece391.Adventure.Commands
import Ece391.Lib.LinkedList
import Mathlib.Data.List.Perm.Subperm

open Ece391.Lib

namespace Ece391.Adventure

/-! ## Reading back assignments -/

section Fields

variable (w : World) (r r' : RoomId) (o o' : ObjId)

@[simp] theorem setRoom_room_self (f : Room → Room) : (w.setRoom r f).room r = f (w.room r) :=
  Function.update_self _ _ _

theorem setRoom_room_of_ne (f : Room → Room) (h : r' ≠ r) : (w.setRoom r f).room r' = w.room r' :=
  Function.update_of_ne h _ _

@[simp] theorem setRoom_object (f : Room → Room) : (w.setRoom r f).object = w.object := rfl

@[simp] theorem setObject_room (f : Object → Object) : (w.setObject o f).room = w.room := rfl

@[simp] theorem setObject_object_self (f : Object → Object) :
    (w.setObject o f).object o = f (w.object o) := Function.update_self _ _ _

theorem setObject_object_of_ne (f : Object → Object) (h : o' ≠ o) :
    (w.setObject o f).object o' = w.object o' := Function.update_of_ne h _ _

/-- An assignment to a room leaves a field it does not mention alone, in every room. -/
theorem setRoom_field {β : Type} (g : Room → β) {f : Room → Room}
    (hf : g (f (w.room r)) = g (w.room r)) (r' : RoomId) :
    g ((w.setRoom r f).room r') = g (w.room r') := by
  by_cases hr : r' = r
  · subst hr
    rw [setRoom_room_self, hf]
  · rw [setRoom_room_of_ne _ _ _ _ hr]

/-- An assignment to an object, likewise. -/
theorem setObject_field {β : Type} (g : Object → β) {f : Object → Object}
    (hf : g (f (w.object o)) = g (w.object o)) (o' : ObjId) :
    g ((w.setObject o f).object o') = g (w.object o') := by
  by_cases ho : o' = o
  · subst ho
    rw [setObject_object_self, hf]
  · rw [setObject_object_of_ne _ _ _ _ ho]

/-- What holds of every room and of the assigned one holds of every room afterwards. -/
theorem setRoom_forall {P : Room → Prop} (h : ∀ r, P (w.room r)) {f : Room → Room}
    (hf : P (f (w.room r))) (r' : RoomId) : P ((w.setRoom r f).room r') := by
  by_cases hr : r' = r
  · subst hr
    rwa [setRoom_room_self]
  · rw [setRoom_room_of_ne _ _ _ _ hr]
    exact h r'

/-- A swapped photo is the only thing that changes in the rooms. -/
theorem doPhotoSwap_room (which : SwapId) : (w.doPhotoSwap r which).room =
    (w.setRoom r fun b => { b with view := w.swapPhoto which }).room := rfl

end Fields

/-! ## What the splices leave alone -/

/-- **`Kept w w'`** — rooms keep their photos and exits, objects their names and images; and the flags. -/
structure Kept (w w' : World) : Prop where
  left : ∀ r, (w'.room r).left = (w.room r).left
  enter : ∀ r, (w'.room r).enter = (w.room r).enter
  right : ∀ r, (w'.room r).right = (w.room r).right
  view : ∀ r, (w'.room r).view = (w.room r).view
  name : ∀ o, (w'.object o).name = (w.object o).name
  img : ∀ o, (w'.object o).img = (w.object o).img
  swapPhoto : w'.swapPhoto = w.swapPhoto
  flags : w'.flags = w.flags

namespace Kept

theorem refl (w : World) : Kept w w :=
  ⟨fun _ => rfl, fun _ => rfl, fun _ => rfl, fun _ => rfl, fun _ => rfl, fun _ => rfl, rfl, rfl⟩

theorem trans {w w' w'' : World} (h : Kept w w') (h' : Kept w' w'') : Kept w w'' where
  left r := (h'.left r).trans (h.left r)
  enter r := (h'.enter r).trans (h.enter r)
  right r := (h'.right r).trans (h.right r)
  view r := (h'.view r).trans (h.view r)
  name o := (h'.name o).trans (h.name o)
  img o := (h'.img o).trans (h.img o)
  swapPhoto := h'.swapPhoto.trans h.swapPhoto
  flags := h'.flags.trans h.flags

/-- An assignment to the contents of a room. -/
theorem setContents (w : World) (r : RoomId) (v : Option ObjId) :
    Kept w (w.setRoom r fun b => { b with contents := v }) where
  left := setRoom_field w r Room.left rfl
  enter := setRoom_field w r Room.enter rfl
  right := setRoom_field w r Room.right rfl
  view := setRoom_field w r Room.view rfl
  name _ := rfl
  img _ := rfl
  swapPhoto := rfl
  flags := rfl

/-- An assignment to an object that leaves its name and image alone. -/
theorem setObject (w : World) (o : ObjId) {f : Object → Object} (hname : (f (w.object o)).name = (w.object o).name)
    (himg : (f (w.object o)).img = (w.object o).img) : Kept w (w.setObject o f) where
  left _ := rfl
  enter _ := rfl
  right _ := rfl
  view _ := rfl
  name := setObject_field w o Object.name hname
  img := setObject_field w o Object.img himg
  swapPhoto := rfl
  flags := rfl

theorem storeCell (w : World) (r : RoomId) (v : Option ObjId) (c : Option ObjId) :
    Kept w (w.storeCell r v c) := by
  cases c with
  | none => exact setContents w r v
  | some p => exact setObject w p (f := fun b => { b with next := v }) rfl rfl

end Kept

/-! ## The lists in terms of the fields -/

theorem mem_objData (o : ObjId) : o ∈ objData.map ObjData.id := by
  cases o <;> simp [objData]

/-- The fuel is enough for every list without repetitions. -/
theorem length_le_nObjects {l : List ObjId} (h : l.Nodup) : l.length ≤ nObjects := by
  have hsub : l ⊆ objData.map ObjData.id := fun o _ => mem_objData o
  exact (List.Nodup.subperm h hsub).length_le

section Splices

variable (w : World) (r : RoomId) (o : ObjId)

theorem storeCell_contents (v : Option ObjId) (c : Option ObjId) :
    (w.storeCell r v c).contents = storeHead w.contents r v c := by
  cases c with
  | none =>
      funext r'
      by_cases hr : r' = r
      · subst hr
        simp [World.storeCell, World.contents, storeHead]
      · simp [World.storeCell, World.contents, storeHead, setRoom_room_of_ne _ _ _ _ hr, hr]
  | some p => rfl

theorem storeCell_next (v : Option ObjId) (c : Option ObjId) :
    (w.storeCell r v c).next = storeNext w.next v c := by
  cases c with
  | none => rfl
  | some p =>
      funext o'
      by_cases ho : o' = p
      · subst ho
        simp [World.storeCell, World.next, storeNext]
      · simp [World.storeCell, World.next, storeNext, setObject_object_of_ne _ _ _ _ ho, ho]

theorem storeCell_loc (v : Option ObjId) (c : Option ObjId) : (w.storeCell r v c).loc = w.loc := by
  cases c with
  | none => rfl
  | some p => exact funext (setObject_field w p Object.loc (f := fun b => { b with next := v }) rfl)

/-- The three fields after an assignment to the location of an object. -/
theorem setLoc_fields (l : Option RoomId) :
    (w.setObject o fun b => { b with loc := l }).contents = w.contents ∧
    (w.setObject o fun b => { b with loc := l }).next = w.next ∧
    (w.setObject o fun b => { b with loc := l }).loc = Function.update w.loc o l := by
  refine ⟨rfl, ?_, ?_⟩
  all_goals
    funext o'
    by_cases ho : o' = o
    · subst ho
      simp [World.next, World.loc]
    · simp [World.next, World.loc, setObject_object_of_ne _ _ _ _ ho, ho]

end Splices

/-! ## `remove_object` and `insert_object_at` -/

section Operations

variable {w : World}

/-- The lists of a world are in order. -/
def World.Listed (w : World) : Prop := Filed w.contents w.next w.loc

/-- **`Moves w o l w'`** — the object goes to `l`, or to limbo; the lists stay in order, and nothing else
changes. -/
structure Moves (w : World) (o : ObjId) (l : Option RoomId) (w' : World) : Prop extends Kept w w' where
  listed : w'.Listed
  loc : w'.loc = Function.update w.loc o l

/-- **`remove_object` finds the object and puts it in limbo.** -/
theorem World.Listed.removeObject (h : w.Listed) (o : ObjId) :
    ∃ w', w.removeObject o = some w' ∧ Moves w o none w' := by
  unfold World.removeObject
  cases hloc : w.loc o with
  | none => exact ⟨w, rfl, .refl w, h, by rw [← hloc, Function.update_eq_self]⟩
  | some r =>
      obtain ⟨cell, hcell, hfiled⟩ := Filed.unlink h hloc (fun l hl => length_le_nObjects hl)
      obtain ⟨hcontents, hnext, hlocs⟩ :=
        setLoc_fields (w.storeCell r (w.next o) cell) o none
      refine ⟨(w.storeCell r (w.next o) cell).setObject o fun b => { b with loc := none },
        by simp only [hcell, Option.map_some], ?_, ?_, ?_⟩
      · exact (Kept.storeCell w r _ cell).trans (Kept.setObject _ o rfl rfl)
      · rw [World.Listed, hcontents, hnext, hlocs, storeCell_contents, storeCell_next, storeCell_loc]
        exact hfiled
      · rw [hlocs, storeCell_loc]

/-- The three fields after the last assignments of `insert_object_at`. -/
theorem link_fields (w : World) (o : ObjId) (r : RoomId) :
    let w' := (w.setObject o fun b => { b with loc := some r, next := w.contents r }).setRoom r
      fun b => { b with contents := some o }
    w'.contents = Function.update w.contents r (some o) ∧
    w'.next = Function.update w.next o (w.contents r) ∧
    w'.loc = Function.update w.loc o (some r) := by
  refine ⟨?_, ?_, ?_⟩
  · funext r'
    by_cases hr : r' = r
    · subst hr
      simp [World.contents]
    · simp [World.contents, setRoom_room_of_ne _ _ _ _ hr, hr]
  all_goals
    funext o'
    by_cases ho : o' = o
    · subst ho
      simp [World.next, World.loc]
    · simp [World.next, World.loc, setObject_object_of_ne _ _ _ _ ho, ho]

/-- The three fields after an assignment to the position of an object. -/
theorem setPosition_fields (w : World) (o : ObjId) (x y : Nat) :
    (w.setObject o fun b => { b with x := x, y := y }).contents = w.contents ∧
    (w.setObject o fun b => { b with x := x, y := y }).next = w.next ∧
    (w.setObject o fun b => { b with x := x, y := y }).loc = w.loc := by
  exact ⟨rfl, funext (setObject_field w o Object.next rfl), funext (setObject_field w o Object.loc rfl)⟩

/-- **`insert_object_at` puts the object in the room.** -/
theorem World.Listed.insertObjectAt (h : w.Listed) (o : ObjId) (r : RoomId) (x y : Int) :
    ∃ w', w.insertObjectAt o r x y = some w' ∧ Moves w o (some r) w' := by
  obtain ⟨w1, hw1, h1⟩ := h.removeObject o
  obtain ⟨w2, hw2⟩ : ∃ w2, w2 = w1.setObject o fun b =>
      { b with x := (x % 2 ^ 16).toNat, y := (y % 2 ^ 16).toNat } := ⟨_, rfl⟩
  obtain ⟨hcontents2, hnext2, hloc2⟩ := setPosition_fields w1 o (x % 2 ^ 16).toNat (y % 2 ^ 16).toNat
  rw [← hw2] at hcontents2 hnext2 hloc2
  have hkept2 : Kept w1 w2 := hw2 ▸ Kept.setObject w1 o rfl rfl
  obtain ⟨hcontents, hnext, hloc⟩ := link_fields w2 o r
  have hlimbo : w1.loc o = none := by rw [h1.loc, Function.update_self]
  refine ⟨(w2.setObject o fun b => { b with loc := some r, next := w2.contents r }).setRoom r
    fun b => { b with contents := some o }, ?_, ?_, ?_, ?_⟩
  · rw [World.insertObjectAt, hw1, hw2]
    rfl
  · exact (h1.toKept.trans hkept2).trans ((Kept.setObject w2 o rfl rfl).trans (Kept.setContents _ r _))
  · rw [World.Listed, hcontents, hnext, hloc, hcontents2, hnext2, hloc2]
    exact Filed.push h1.listed hlimbo r
  · rw [hloc, hloc2, h1.loc, Function.update_idem]

theorem World.Listed.insertObject (h : w.Listed) (o : ObjId) (r : RoomId) (rand : Nat → Nat)
    (hview : (w.room r).view ≠ none) (himg : (w.object o).img ≠ none) :
    ∃ w', w.insertObject o r rand = some w' ∧ Moves w o (some r) w' := by
  unfold World.insertObject
  cases hv : (w.room r).view with
  | none => exact absurd hv hview
  | some view =>
      cases hi : (w.object o).img with
      | none => exact absurd hi himg
      | some img => exact h.insertObjectAt o r _ _

/-- A loop over a room's contents ends. -/
theorem World.Listed.findFrom (h : w.Listed) (test : ObjId → Bool) (r : RoomId) :
    ∃ found, Lib.findFrom w.next test nObjects (w.contents r) = some found := by
  obtain ⟨l, hchain, hnd, -⟩ := h r
  exact ⟨_, findFrom_eq test hchain (length_le_nObjects hnd)⟩

theorem World.Listed.placeInInventory (h : w.Listed) (o : ObjId) (rand : Nat → Nat)
    (hview : (w.room .inventory).view ≠ none) (himg : (w.object o).img ≠ none)
    (grid : List (Nat × Nat)) :
    ∃ w', w.placeInInventory o rand grid = some w' ∧ Moves w o (some .inventory) w' := by
  induction grid with
  | nil => exact h.insertObject o .inventory rand hview himg
  | cons p grid ih =>
      obtain ⟨x, y⟩ := p
      obtain ⟨found, hfound⟩ := h.findFrom (fun o => x == (w.object o).x && y == (w.object o).y) .inventory
      have hconflict : w.conflict x y = some found := hfound
      cases found with
      | none =>
          obtain ⟨w', hw', hmoves⟩ := h.insertObjectAt o .inventory x y
          exact ⟨w', by simp only [World.placeInInventory, hconflict, hw'], hmoves⟩
      | some _ =>
          obtain ⟨w', hw', hmoves⟩ := ih
          exact ⟨w', by simp only [World.placeInInventory, hconflict, hw'], hmoves⟩

/-! ## The invariant -/

/-- **`Sound w`** — the lists are in order, every photo and image is there, and no exit leads to the
inventory. -/
structure Sound (w : World) : Prop where
  listed : w.Listed
  left : ∀ r, (w.room r).left ≠ some .inventory
  enter : ∀ r, (w.room r).enter ≠ some .inventory
  right : ∀ r, (w.room r).right ≠ some .inventory
  view : ∀ r, (w.room r).view ≠ none
  img : ∀ o, (w.object o).img ≠ none
  swapPhoto : ∀ s, w.swapPhoto s ≠ none

theorem Sound.moves {w w' : World} {o : ObjId} {l : Option RoomId} (h : Sound w) (hm : Moves w o l w') :
    Sound w' where
  listed := hm.listed
  left r := hm.left r ▸ h.left r
  enter r := hm.enter r ▸ h.enter r
  right r := hm.right r ▸ h.right r
  view r := hm.view r ▸ h.view r
  img o := hm.img o ▸ h.img o
  swapPhoto s := hm.swapPhoto ▸ h.swapPhoto s

theorem Sound.setFlag (h : Sound w) (f : Flag) : Sound (w.setFlag f) :=
  ⟨h.listed, h.left, h.enter, h.right, h.view, h.img, h.swapPhoto⟩

/-- An assignment to a room that leaves its contents alone. -/
theorem Sound.setRoom (h : Sound w) (r : RoomId) {f : Room → Room}
    (hcontents : (f (w.room r)).contents = (w.room r).contents)
    (hleft : (f (w.room r)).left ≠ some .inventory) (henter : (f (w.room r)).enter ≠ some .inventory)
    (hright : (f (w.room r)).right ≠ some .inventory) (hview : (f (w.room r)).view ≠ none) :
    Sound (w.setRoom r f) where
  listed := by
    have hsame : (w.setRoom r f).contents = w.contents := funext (setRoom_field w r Room.contents hcontents)
    rw [World.Listed, hsame]
    exact h.listed
  left := setRoom_forall w r (P := fun b => b.left ≠ some .inventory) h.left hleft
  enter := setRoom_forall w r (P := fun b => b.enter ≠ some .inventory) h.enter henter
  right := setRoom_forall w r (P := fun b => b.right ≠ some .inventory) h.right hright
  view := setRoom_forall w r (P := fun b => b.view ≠ none) h.view hview
  img := h.img
  swapPhoto := h.swapPhoto

theorem Sound.doPhotoSwap (h : Sound w) (r : RoomId) (which : SwapId) :
    Sound (w.doPhotoSwap r which) := by
  have hroom : Sound (w.setRoom r fun b => { b with view := w.swapPhoto which }) :=
    h.setRoom r rfl (h.left r) (h.enter r) (h.right r) (h.swapPhoto which)
  refine ⟨hroom.listed, hroom.left, hroom.enter, hroom.right, hroom.view, hroom.img, fun s => ?_⟩
  show Function.update w.swapPhoto which (w.room r).view s ≠ none
  by_cases hs : s = which
  · subst hs
    rw [Function.update_self]
    exact h.view r
  · rw [Function.update_of_ne hs]
    exact h.swapPhoto s

/-- The two assignments to an `enter`. -/
theorem Sound.setEnter (h : Sound w) (r : RoomId) {dest : RoomId} (hdest : dest ≠ .inventory) :
    Sound (w.setRoom r fun b => { b with enter := some dest }) :=
  h.setRoom r rfl (h.left r) (fun heq => hdest (Option.some.inj heq)) (h.right r) (h.view r)

end Operations

/-- **`Ready w r`** — the world is sound, and a player who looks at the inventory stands somewhere. -/
structure Ready (w : World) (r : RoomId) : Prop extends Sound w where
  placed : r = .inventory → (w.room .inventory).enter ≠ none

end Ece391.Adventure
