/-
# Ece391.Tux.Transmit — when no transmitted byte is lost.

`tuxctl_ldisc_write_wakeup` takes bytes off the ring while `n <= room`, one more than the driver has
room for.  The driver accepts `room` of them, and the last one is gone.  So a wakeup loses a byte
exactly if the ring holds more than the driver has room for, and a lost byte never comes back: the
bytes are all accounted for in every state of a run exactly if every wakeup finds enough room.
-/
import Ece391.Lib.Transition
import Ece391.Tux.Ldisc

open Ece391.Lib

namespace Ece391.Tux

/-! ## One wakeup -/

/-- **The loop takes one byte more than there is room for.** -/
theorem wakeupLoop_eq {room : Int} {fuel n : Nat} {tx : Ring UInt8 bufsize} (hfuel : tx.used ≤ fuel) :
    wakeupLoop room fuel n tx = tx.drain (room + 1 - n).toNat := by
  induction fuel generalizing n tx with
  | zero =>
      have hempty : tx.Empty := Ring.empty_iff.mpr (by omega)
      rw [wakeupLoop]
      cases (room + 1 - n).toNat with
      | zero => rfl
      | succ k => rw [Ring.drain, if_pos hempty]
  | succ fuel ih =>
      unfold wakeupLoop
      split
      next hmore =>
        obtain ⟨hroom, hempty⟩ := hmore
        have hk : (room + 1 - n).toNat = (room + 1 - (n + 1 : Nat)).toNat + 1 := by omega
        have hused := Ring.used_pop hempty
        rw [hk, Ring.drain, if_neg hempty, ih (by omega)]
      next hmore =>
        by_cases hempty : tx.Empty
        · cases (room + 1 - n).toNat with
          | zero => rfl
          | succ k => rw [Ring.drain, if_pos hempty]
        · have hk : (room + 1 - n).toNat = 0 := by
            by_contra hne
            exact hmore ⟨by omega, hempty⟩
          rw [hk]
          rfl

/-- The bytes taken off the ring, and what the driver accepts of them. -/
theorem writeWakeup_spec (data : LdiscData) (room : Int) :
    (tuxctlLdiscWriteWakeup data room).1.tx.contents = data.tx.contents.drop (room + 1).toNat ∧
    (tuxctlLdiscWriteWakeup data room).2 = data.tx.contents.take room.toNat := by
  have hloop : wakeupLoop room bufsize 0 data.tx = data.tx.drain (room + 1).toNat := by
    rw [wakeupLoop_eq (Nat.le_of_lt data.tx.used_lt)]
    congr 2
    omega
  obtain ⟨hout, hrest⟩ := data.tx.drain_spec (room + 1).toNat
  unfold tuxctlLdiscWriteWakeup
  rw [hloop]
  refine ⟨hrest, ?_⟩
  show driverWrite room (data.tx.drain (room + 1).toNat).1 = _
  rw [hout, driverWrite, List.take_take, List.length_take, List.take_eq_take_iff]
  omega

/-- The ring has enough room to be emptied, or nothing is tried. -/
def Enough (used : Nat) (room : Int) : Prop := room < 0 ∨ used ≤ room

/-- **A wakeup keeps all bytes exactly if there is enough room.** -/
theorem writeWakeup_keeps_iff (data : LdiscData) (room : Int) :
    (tuxctlLdiscWriteWakeup data room).2 ++ (tuxctlLdiscWriteWakeup data room).1.tx.contents =
      data.tx.contents ↔ Enough data.tx.used room := by
  obtain ⟨hring, haccepted⟩ := writeWakeup_spec data room
  rw [hring, haccepted]
  have hused := data.tx.length_contents
  constructor
  · intro h
    have hlen := congrArg List.length h
    rw [List.length_append, List.length_take, List.length_drop] at hlen
    unfold Enough
    omega
  · rintro (hneg | hle)
    · rw [Int.toNat_of_nonpos (by omega), Int.toNat_of_nonpos (by omega)]
      rfl
    · rw [List.take_of_length_le (by omega), List.drop_eq_nil_of_le (by omega), List.append_nil]

/-! ## Runs -/

/-- The calls, each with what `write_room` returns. -/
inductive TxCall
  | put (buf : List UInt8) (room : Int)
  | writeWakeup (room : Int)

/-- **`Sender`** — the line, with a record of all bytes the driver accepted and all bytes `put` reported
as taken. -/
structure Sender where
  data : LdiscData
  accepted : List UInt8
  taken : List UInt8

def Sender.call (s : Sender) : TxCall → Sender
  | .put buf room =>
      let (data, accepted, left) := tuxctlLdiscPut s.data buf room
      ⟨data, s.accepted ++ accepted, s.taken ++ buf.take (buf.length - left)⟩
  | .writeWakeup room =>
      let (data, accepted) := tuxctlLdiscWriteWakeup s.data room
      ⟨data, s.accepted ++ accepted, s.taken⟩

/-- One call. -/
def Sends (s : Sender) (c : TxCall) (s' : Sender) : Prop := s' = s.call c

/-- The line as `tuxctl_ldisc_open` leaves it. -/
def Sender.opened (rxMem txMem : Nat → UInt8) : Sender := ⟨⟨clearRing rxMem, clearRing txMem⟩, [], []⟩

/-- **`Sender.Lossless s`** — what the driver accepted and what is in the ring is what was taken. -/
def Sender.Lossless (s : Sender) : Prop := s.accepted ++ s.data.tx.contents = s.taken

/-- The wakeup of a call has enough room for what is then in the ring. -/
def Sender.Roomy (s : Sender) : TxCall → Prop
  | .put buf room => Enough (min 63 (s.data.tx.used + buf.length)) room
  | .writeWakeup room => Enough s.data.tx.used room

/-- A wakeup of a lossless line. -/
theorem lossless_wakeup {accepted taken : List UInt8} (data : LdiscData)
    (h : accepted ++ data.tx.contents = taken) (room : Int) :
    (accepted ++ (tuxctlLdiscWriteWakeup data room).2) ++
      (tuxctlLdiscWriteWakeup data room).1.tx.contents = taken ↔ Enough data.tx.used room := by
  rw [← writeWakeup_keeps_iff, ← h, List.append_assoc, List.append_cancel_left_eq]

/-- **One call of a lossless line.** -/
theorem lossless_call {s : Sender} (h : s.Lossless) (c : TxCall) :
    (s.call c).Lossless ↔ s.Roomy c := by
  cases c with
  | writeWakeup room => exact lossless_wakeup s.data h room
  | put buf room =>
      obtain ⟨hfill, hleft⟩ := s.data.tx.fill_spec buf
      have htaken : buf.take (buf.length - (s.data.tx.fill buf).2.length) =
          buf.take (bufsize - 1 - s.data.tx.used) := by
        rw [hleft, List.length_drop, List.take_eq_take_iff]
        omega
      have hused : (s.data.tx.fill buf).1.used = min 63 (s.data.tx.used + buf.length) := by
        have hlt := s.data.tx.used_lt
        rw [← Ring.length_contents, hfill, List.length_append, List.length_take, Ring.length_contents]
        unfold bufsize at hlt ⊢
        omega
      have hput : s.accepted ++ (s.data.tx.fill buf).1.contents =
          s.taken ++ buf.take (bufsize - 1 - s.data.tx.used) := by
        rw [hfill, ← List.append_assoc, h]
      have hstep := lossless_wakeup { s.data with tx := (s.data.tx.fill buf).1 } hput room
      rw [← htaken] at hstep
      show _ ↔ Enough (min 63 (s.data.tx.used + buf.length)) room
      rw [← hused]
      exact hstep

/-- **No byte is lost exactly if every wakeup has enough room.**  In every run of `put` and
`write_wakeup` calls from an open line, the bytes are accounted for in every state reached if and only
if each call finds the ring it wakes the driver for no fuller than the room reported, or the room
negative. -/
theorem lossless_iff_enough_room (rxMem txMem : Nat → UInt8) (calls : List TxCall) :
    AllStates Sends Sender.Lossless (.opened rxMem txMem) calls ↔
      AllSteps Sends Sender.Roomy (.opened rxMem txMem) calls := by
  have hdom : AllSteps Sends (fun _ _ => True) (.opened rxMem txMem) calls := allSteps_true
  have hinit : (Sender.opened rxMem txMem).Lossless := rfl
  refine allStates_iff_allSteps (R := Sends) (I := fun _ => True) (fun s c => ⟨s.call c, rfl⟩)
    (fun _ _ _ _ _ _ _ _ => trivial) ?_ trivial hinit hdom
  rintro s c _ - hlossless - rfl
  exact lossless_call hlossless c

/-- One byte, and a driver that has no room: the byte is taken and then gone. -/
theorem byte_lost : ∃ s, Run Sends (.opened (fun _ => 0) fun _ => 0) [.put [0x30] 0] s ∧ ¬s.Lossless := by
  refine ⟨_, ⟨_, rfl, rfl⟩, fun hlost => ?_⟩
  exact absurd (congrArg List.length hlost) (by decide)

end Ece391.Tux
