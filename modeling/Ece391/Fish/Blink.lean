/-
# Ece391.Fish.Blink — the blinking characters of the fish program: `blink.S` and the allocator of `fish.c`.

The structures live in `blink_array`.  `mp1_malloc` takes a slot for free when its `location` is 0, which is
also the location of the top left corner of the screen; the list that starts at `mp1_list_head` runs through
the slots by their `next` pointers.

A pointer into the array is an `Option Slot`, `none` being NULL, and the `NEXT` fields are a part of the state
of their own, so that the loops are those of `Lib.LinkedList`.  The one in the structure of a caller is left
out: `mp1_ioctl_add` overwrites the copy before it is read.  A loop has as much fuel as there are slots;
`none` means that it was still going then, so that it had come back to a slot and never ends.

`Tidy` is what the routines need and what they keep as long as no listed slot is taken for a free one; it is
read off each routine in `Listed` and put together in `Tidy.step`.
-/
import Mathlib.Data.Fintype.Card
import Mathlib.Data.List.FinRange
import Ece391.Lib.Branches
import Ece391.Lib.LinkedList

open Ece391.Lib

namespace Ece391.Fish

/-- The number of structures in `blink_array`. -/
abbrev numSlots : Nat := 80 * 25

abbrev Slot := Fin numSlots

/-- `struct mp1_blink_struct`, up to its `next`. -/
structure Blink where
  location : BitVec 16
  onChar : UInt8
  offChar : UInt8
  onLength : BitVec 16
  offLength : BitVec 16
  countdown : BitVec 16
  status : BitVec 16
  deriving DecidableEq

/-- `mp1_list_head`, `blink_array` with its `next` pointers, and the video memory from `vmem_base_addr`
on. -/
structure Blinkers where
  listHead : Option Slot
  blinkArray : Slot → Blink
  next : Slot → Option Slot
  vmem : Nat → UInt8

namespace Blink

/-- What `ece391_memset` leaves of a structure. -/
def zero : Blink := ⟨0, 0, 0, 0, 0, 0, 0⟩

/-- The low bit of STATUS. -/
def isOn (b : Blink) : Bool := b.status.getLsbD 0

/-- `movzwl LOCATION(..), %eax; shl $1, %eax`. -/
def offset (b : Blink) : Nat := 2 * b.location.toNat

/-- The structure with the lengths, the countdown and the phase of another. -/
def timedAs (b c : Blink) : Blink :=
  { b with onLength := c.onLength, offLength := c.offLength, countdown := c.countdown, status := c.status }

end Blink

namespace Blinkers

/-! ## `fish.c` -/

/-- `mp1_malloc`. -/
def malloc (s : Blinkers) : Option Slot :=
  (List.finRange numSlots).find? fun i => (s.blinkArray i).location == 0

/-- `mp1_free`. -/
def free (s : Blinkers) (memory : Slot) : Blinkers :=
  { s with
    blinkArray := Function.update s.blinkArray memory Blink.zero
    next := Function.update s.next memory none }

/-! ## `blink.S` -/

/-- `mp1_poke`, with the byte in CL and the offset in EAX. -/
def poke (s : Blinkers) (cl : UInt8) (eax : Nat) : Blinkers :=
  { s with vmem := Function.update s.vmem eax cl }

/-- `mp1_find_helper`. -/
def findHelper (s : Blinkers) (location : BitVec 16) : Option (Option Slot) :=
  findFrom s.next (fun p => (s.blinkArray p).location == location) numSlots s.listHead

/-- The body of `tasklet_loop`, up to `next_loop`. -/
def turn (s : Blinkers) (p : Slot) : Blinkers :=
  let b := s.blinkArray p
  let countdown := b.countdown - 1
  if 0 < countdown.toInt then
    { s with blinkArray := Function.update s.blinkArray p { b with countdown := countdown } }
  else
    let char := if b.isOn then b.offChar else b.onChar
    let length := if b.isOn then b.offLength else b.onLength
    { s.poke char b.offset with
      blinkArray := Function.update s.blinkArray p
        { b with countdown := length, status := b.status ^^^ 1 } }

/-- `tasklet_loop`. -/
def taskletLoop : Nat → Option Slot → Blinkers → Option Blinkers
  | _, none, s => some s
  | 0, some _, _ => none
  | fuel + 1, some p, s => taskletLoop fuel ((s.turn p).next p) (s.turn p)

/-- `mp1_rtc_tasklet`. -/
def tasklet (s : Blinkers) : Option Blinkers := taskletLoop numSlots s.listHead s

/-- The copy that `mp1_ioctl_add` makes on its stack and marks as on. -/
def marked (user : Blink) : Blink := { user with status := 1, countdown := user.onLength }

/-- `mp1_ioctl_add` from the second `ece391_memcpy` on: the structure goes into its slot, the slot to the front
of the list, and the character to the screen. -/
def insert (s : Blinkers) (p : Slot) (b : Blink) : Blinkers :=
  { s with
    blinkArray := Function.update s.blinkArray p b
    next := Function.update s.next p s.listHead
    listHead := some p }.poke b.onChar b.offset

/-- `mp1_ioctl_add`, with the value returned. -/
def ioctlAdd (s : Blinkers) (user : Blink) : Blinkers × Int :=
  if 80 * 25 ≤ user.location.toNat then (s, -1)
  else
    match s.malloc with
    | none => (s, -1)
    | some p => (s.insert p (marked user), 0)

/-- `movl NEXT(%eax), %ecx; movl %ecx, (%edx)`: EDX points to a cell of the list, EAX to the slot behind it. -/
def unlink (s : Blinkers) (edx : Option Slot) (eax : Slot) : Blinkers :=
  { s with
    listHead := headAfter s.listHead (s.next eax) edx
    next := storeNext s.next (s.next eax) edx }

/-- `mp1_ioctl_remove`.  The loop `remove_find_prev` does not test for the end of the list. -/
def ioctlRemove (s : Blinkers) (arg : BitVec 32) : Option (Blinkers × Int) :=
  match s.findHelper (arg.setWidth 16) with
  | none => none
  | some none => some (s, -1)
  | some (some p) =>
    match findCell s.listHead s.next p numSlots none with
    | some (some edx) => some ((s.unlink edx p).free p, 0)
    | _ => none

/-- `sync_copy_loop`, which runs once: four fields go from ESI to EDI. -/
def syncCopy (s : Blinkers) (esi edi : Slot) : Blinkers :=
  { s with blinkArray := Function.update s.blinkArray edi ((s.blinkArray edi).timedAs (s.blinkArray esi)) }

/-- `movzbl OFF_CHAR, %ecx; movzbl ON_CHAR, %ebx; testb $1, STATUS; cmovl %ebx, %ecx`, with the character
left in CL.  The flags before the `testb` play no part. -/
def syncChar (b : Blink) : UInt8 :=
  if X86.less (X86.testFlags 0 1 (b.status.setWidth 8)) then b.onChar else b.offChar

/-- `sync_display`. -/
def syncDisplay (s : Blinkers) (edi : Slot) : Blinkers :=
  s.poke (syncChar (s.blinkArray edi)) (s.blinkArray edi).offset

/-- `mp1_ioctl_sync`: the location to copy from is in the upper half of the argument. -/
def ioctlSync (s : Blinkers) (arg : BitVec 32) : Option (Blinkers × Int) :=
  match s.findHelper ((arg >>> 16).setWidth 16) with
  | none => none
  | some none => some (s, -1)
  | some (some esi) =>
    match s.findHelper ((arg &&& 0xFFFF).setWidth 16) with
    | none => none
    | some none => some (s, -1)
    | some (some edi) => some ((s.syncCopy esi edi).syncDisplay edi, 0)

/-- `mp1_ioctl_find`, with the structure it copies out. -/
def ioctlFind (s : Blinkers) (location : BitVec 16) : Option (Int × Option Blink) :=
  match s.findHelper location with
  | none => none
  | some none => some (-1, none)
  | some (some p) => some (0, some (s.blinkArray p))

/-! ## The entry points -/

/-- The calls of `mp1_ioctl`, by their place in `call_table`, and the tasklet. -/
inductive Op
  | add (user : Blink)
  | remove (arg : BitVec 32)
  | find (location : BitVec 16)
  | sync (arg : BitVec 32)
  | tasklet

/-- The state after an operation, `none` if it does not return. -/
def run (s : Blinkers) : Op → Option Blinkers
  | .add user => some (s.ioctlAdd user).1
  | .remove arg => (s.ioctlRemove arg).map Prod.fst
  | .find location => (s.ioctlFind location).map fun _ => s
  | .sync arg => (s.ioctlSync arg).map Prod.fst
  | .tasklet => s.tasklet

/-- A step: the operation returns. -/
def Does (s : Blinkers) (op : Op) (s' : Blinkers) : Prop := s.run op = some s'

/-- `main` before its first call: no list, the array zeroed. -/
def start (vmem : Nat → UInt8) : Blinkers := ⟨none, fun _ => Blink.zero, fun _ => none, vmem⟩

end Blinkers

end Ece391.Fish
