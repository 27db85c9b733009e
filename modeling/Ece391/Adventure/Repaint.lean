/-
# Ece391.Adventure.Repaint — what the value of an action says about the picture.

`game_loop` and `handle_typing` redraw nothing on their own: they go by the `tc_action_t` that the action
returns.  `TC_CHANGE_ROOM` draws the room from the origin of its photo, `TC_REDRAW_ROOM` draws the window where
it is, and after the other two values the screen stays as it is.

`Outcome.repaints` is what makes this right.  An action that lets the player stay leaves the photo alone, and
one that asks for no drawing has not changed the scene.  The two photo swaps under a player who stays return
`TC_CHANGE_ROOM` for this reason.

The board and the jetpack are moved by `get` and `drop` only.  No action brings in a photo that was not there
from the start: it hangs in a room, or is kept for a swap.
-/
import Ece391.Adventure.Getting
import Ece391.Adventure.Render

namespace Ece391.Adventure

/-! ## Photos -/

/-- Every photo, in a room or kept for a swap, has the property. -/
def World.Photos (Q : Photo → Prop) (w : World) : Prop :=
  (∀ r view, (w.room r).view = some view → Q view) ∧ ∀ s view, w.swapPhoto s = some view → Q view

section Photos

variable {w w' : World} {Q : Photo → Prop}

theorem World.Photos.of_same (h : w.Photos Q) (hview : ∀ r, (w'.room r).view = (w.room r).view)
    (hswap : w'.swapPhoto = w.swapPhoto) : w'.Photos Q := by
  refine ⟨fun r view hr => h.1 r view ?_, fun s view hs => h.2 s view ?_⟩
  · rw [← hview]
    exact hr
  · rw [← hswap]
    exact hs

/-- The photo of a room and the one kept for it change places. -/
theorem World.Photos.doPhotoSwap (h : w.Photos Q) (r : RoomId) (which : SwapId) :
    (w.doPhotoSwap r which).Photos Q := by
  have hrooms : ∀ r' view, ((w.setRoom r fun b => { b with view := w.swapPhoto which }).room r').view =
      some view → Q view :=
    setRoom_forall w r (P := fun b => ∀ view, b.view = some view → Q view) h.1 (h.2 which)
  refine ⟨hrooms, fun s view hview => ?_⟩
  change Function.update w.swapPhoto which (w.room r).view s = some view at hview
  by_cases hs : s = which
  · subst hs
    rw [Function.update_self] at hview
    exact h.1 r view hview
  · rw [Function.update_of_ne hs] at hview
    exact h.2 s view hview

theorem World.Photos.setEnter (h : w.Photos Q) (r dest : RoomId) :
    (w.setRoom r fun b => { b with enter := some dest }).Photos Q :=
  h.of_same (setRoom_field w r Room.view rfl) rfl

theorem Edits.photos {a : Action} (he : Edits a w w') (h : w.Photos Q) : w'.Photos Q := by
  refine he.invariant (fun w1 w2 h he => ?_) h
  cases he with
  | move _ hm => exact h.of_same hm.view hm.swapPhoto
  | setFlag f => exact h
  | swap r which => exact h.doPhotoSwap r which
  | takeoff => exact h.setEnter .cockpit .overWill

/-- **No action brings in a new photo.** -/
theorem Outcome.photos {a : Action} {r here : RoomId} {reply : Reply} (ho : Outcome a w r here reply)
    (h : w.Photos Q) : reply.world.Photos Q := by
  cases ho with
  | stay he _ _ => exact he.photos h
  | arrive rand _ => exact (Edits.arrive a w _ rand).photos h
  | walk _ _ => exact h
  | look _ => exact h.setEnter .inventory r
  | back _ => exact h
  | win _ _ _ => exact h

/-! ### The photos of a built world -/

section Read

variable {readPhoto : String → Option Photo} {Q : Photo → Prop}
  (hread : ∀ file view, readPhoto file = some view → Q view)

include hread

theorem buildRooms_photos {ds : List RoomData} (hw : w.Photos Q) (h : buildRooms readPhoto ds w = .ok w') :
    w'.Photos Q := by
  induction ds generalizing w with
  | nil =>
      cases h
      exact hw
  | cons d ds ih =>
      unfold buildRooms at h
      split at h
      · cases h
      split at h
      · cases h
      next view hview =>
        refine ih ⟨setRoom_forall w d.id (P := fun b => ∀ view, b.view = some view → Q view) hw.1 ?_, hw.2⟩ h
        rintro view' ⟨⟩
        exact hread _ _ hview

theorem buildSwaps_photos {ds : List SwapData} (hw : w.Photos Q) (h : buildSwaps readPhoto ds w = .ok w') :
    w'.Photos Q := by
  induction ds generalizing w with
  | nil =>
      cases h
      exact hw
  | cons d ds ih =>
      unfold buildSwaps at h
      split at h
      · cases h
      split at h
      · cases h
      next view hview =>
        have hswaps : ∀ s view', Function.update w.swapPhoto d.id (some view) s = some view' → Q view' := by
          intro s view' hview'
          by_cases hs : s = d.id
          · subst hs
            obtain rfl : view = view' := by simpa using hview'
            exact hread _ _ hview
          · exact hw.2 s view' (by simpa [hs] using hview')
        exact ih (w := { w with swapPhoto := Function.update w.swapPhoto d.id (some view) }) ⟨hw.1, hswaps⟩ h

/-- What holds of every photo that is read holds of every photo of the world. -/
theorem photos_of_build {readObjImage : String → Option Image} {rand : ObjId → Nat → Nat}
    (h : buildWorld readPhoto readObjImage rand = some (.ok w)) : w.Photos Q := by
  obtain ⟨w1, w2, h1, h2, h3⟩ := build_loops h
  have hzero : World.zero.Photos Q := ⟨nofun, nofun⟩
  have hfurnished := furnished_of_build h1 h2
  refine buildSwaps_photos hread ?_ h3
  exact (buildRooms_photos hread hzero h1).of_same hfurnished.view hfurnished.swapPhoto

end Read

end Photos

/-! ## The board and the jetpack -/

section Gear

variable {a : Action} {w w' : World} {o : ObjId}

theorem Edits.carried (he : Edits a w w') (ho : ¬Ordinary o) : w'.loc o = w.loc o ∨ a.Carries (w'.loc o) := by
  refine he.invariant (I := fun w' => w'.loc o = w.loc o ∨ a.Carries (w'.loc o)) (fun w1 w2 h he => ?_) (.inl rfl)
  cases he with
  | @move o' l _ hmay hm =>
      rw [hm.loc]
      by_cases heq : o = o'
      · subst heq
        rw [Function.update_self]
        exact .inr (hmay.resolve_left ho)
      · rw [Function.update_of_ne heq]
        exact h
  | _ => exact h

/-- **What makes the player fast is carried by `get` and `drop` only.** -/
theorem Outcome.carried {r here : RoomId} {reply : Reply} (h : Outcome a w r here reply) (ho : ¬Ordinary o) :
    reply.world.loc o = w.loc o ∨ a.Carries (reply.world.loc o) := by
  cases h with
  | stay he _ _ => exact he.carried ho
  | arrive rand _ => exact (Edits.arrive a w _ rand).carried ho
  | _ => exact .inl rfl

end Gear

/-! ## The picture -/

/-- **What the value of an action says about the picture.**  If the player is not said to change rooms, they stay
and the photo is the same; and if no drawing is asked for, the scene is the same. -/
theorem Outcome.repaints {a : Action} {w : World} {r here : RoomId} {reply : Reply}
    (h : Outcome a w r here reply) (haction : reply.action ≠ .changeRoom) :
    reply.room = some r ∧ (reply.world.room r).view = (w.room r).view ∧
      (reply.action ≠ .redrawRoom → reply.world.scene r = w.scene r) := by
  cases h with
  | @stay w' action status _ _ hp =>
      refine ⟨rfl, hp.view haction, fun hredraw => ?_⟩
      obtain ⟨hroom, hobject⟩ := hp.same haction hredraw
      have hcontents : w'.contentsList r = w.contentsList r := by
        have hnext : w'.next = w.next := by
          funext o
          rw [World.next, hobject]
          rfl
        rw [World.contentsList, World.contentsList, hnext, World.contents, hroom]
        rfl
      show w'.scene r = w.scene r
      rw [World.scene, World.scene, hroom, hobject, hcontents]
  | _ => exact absurd rfl haction

/-- The moves do not ask for a redraw: the room is drawn when the player comes to it. -/
theorem Outcome.silent {a : Action} {w : World} {r here : RoomId} {reply : Reply}
    (h : Outcome a w r here reply) (ha : ∀ verb arg, a ≠ .typed verb arg) : reply.action ≠ .redrawRoom := by
  cases h with
  | stay _ _ hp =>
      intro hredraw
      obtain ⟨verb, arg, heq⟩ := hp.typed hredraw
      exact ha verb arg heq
  | _ => nofun

end Ece391.Adventure
