/-
# Ece391.Tux.Ldisc — the line discipline of the Tux controller (`mp2/module/tuxctl-ld.c`).

Two rings of `TUXCTL_BUFSIZE` cells between the serial driver and the rest of the kernel.  Bytes from
the driver go through the receive ring to `tuxctl_ldisc_data_callback`, which cuts them into packets and
keeps what is left over in two static variables.  Bytes to the driver go through the transmit ring.

A buffer and its length are a list of bytes.  The cells of `packet` and `saved` are functions of the
index, so that nothing about their bounds is built in.  The calls are modelled one after the other, as
the lock of the source orders them.
-/
import Ece391.Lib.Ring

open Ece391.Lib

namespace Ece391.Tux

/-- `TUXCTL_BUFSIZE`. -/
def bufsize : Nat := 64

/-- `tuxctl_ldisc_data_t`, with `rx_buf`, `rx_start`, `rx_end` and `tx_buf`, `tx_start`, `tx_end` as a
ring each. -/
structure LdiscData where
  rx : Ring UInt8 bufsize
  tx : Ring UInt8 bufsize

/-- `tty->disc_data`, NULL while the line is closed, and the static variables of the callback. -/
structure Tty where
  discData : Option LdiscData
  saved : Nat → UInt8
  nSaved : Nat

/-- The three bytes handed to `tuxctl_handle_packet`. -/
abbrev Packet := UInt8 × UInt8 × UInt8

/-- A ring with both indices at 0; its cells are what `kmalloc` found. -/
def clearRing (mem : Nat → UInt8) : Ring UInt8 bufsize := ⟨mem, 0, 0, by decide, by decide⟩

/-- **`tuxctlLdiscOpen`** — `tuxctl_ldisc_open` with the memory `kmalloc` returned. -/
def tuxctlLdiscOpen (s : Tty) (rxMem txMem : Nat → UInt8) : Tty :=
  { s with discData := some ⟨clearRing rxMem, clearRing txMem⟩ }

/-- The module as it is loaded. -/
def loaded : Tty := ⟨none, fun _ => 0, 0⟩

/-! ## Receiving -/

/-- **`tuxctlLdiscGet`** — `tuxctl_ldisc_get`: up to `n` bytes of the receive ring. -/
def tuxctlLdiscGet (data : LdiscData) (n : Nat) : List UInt8 × LdiscData :=
  let (out, rx) := data.rx.drain n
  (out, { data with rx := rx })

/-- The framing bits of a packet. -/
def framed (a b c : UInt8) : Bool := a &&& 0x80 == 0 && b &&& 0x80 != 0 && c &&& 0x80 != 0

/-- The loop of the callback over its `n` bytes: the packets and the index it stops at. -/
def frameLoop (packet : Nat → UInt8) (n : Nat) : Nat → Nat → List Packet × Nat
  | 0, i => ([], i)
  | fuel + 1, i =>
      if i + 2 < n then
        if framed (packet i) (packet (i + 1)) (packet (i + 2)) then
          let (packets, i') := frameLoop packet n fuel (i + 3)
          ((packet i, packet (i + 1), packet (i + 2)) :: packets, i')
        else frameLoop packet n fuel (i + 1)
      else ([], i)

/-- **`dataCallback`** — `tuxctl_ldisc_data_callback`: the state, the bytes gotten from the ring and the
packets handled.  Each round of the loop takes a byte at least, so `n` rounds are enough. -/
def dataCallback (s : Tty) (data : LdiscData) : Tty × List UInt8 × List Packet :=
  let (got, data) := tuxctlLdiscGet data (12 - s.nSaved)
  let packet := fun i => if i < s.nSaved then s.saved i else got.getD (i - s.nSaved) 0
  let n := s.nSaved + got.length
  let (packets, i) := frameLoop packet n n 0
  let nSaved := n - i
  let saved := fun j => if j < nSaved then packet (i + j) else s.saved j
  (⟨some data, saved, nSaved⟩, got, packets)

/-- What one call of `tuxctl_ldisc_rcv_buf` did with the bytes. -/
structure Delivery where
  accepted : List UInt8
  consumed : List UInt8
  packets : List Packet

/-- **`tuxctlLdiscRcvBuf`** — `tuxctl_ldisc_rcv_buf`. -/
def tuxctlLdiscRcvBuf (s : Tty) (cp : List UInt8) : Tty × Delivery :=
  match s.discData with
  | none => (s, ⟨[], [], []⟩)
  | some data =>
      let (rx, left) := data.rx.fill cp
      let (s, got, packets) := dataCallback s { data with rx := rx }
      (s, ⟨cp.take (cp.length - left.length), got, packets⟩)

/-! ## Transmitting -/

/-- The loop of `tuxctl_ldisc_write_wakeup`: the bytes in `buf` and the ring.  Each round takes a byte
from the ring, so as many rounds as it has cells are enough. -/
def wakeupLoop (room : Int) : Nat → Nat → Ring UInt8 bufsize → List UInt8 × Ring UInt8 bufsize
  | 0, _, tx => ([], tx)
  | fuel + 1, n, tx =>
      if n ≤ room ∧ ¬ tx.Empty then
        let (buf, tx') := wakeupLoop room fuel (n + 1) tx.pop
        (tx.front :: buf, tx')
      else ([], tx)

/-- The `write` of the serial driver, that accepts what it had room for. -/
def driverWrite (room : Int) (buf : List UInt8) : List UInt8 :=
  buf.take (min (buf.length : Int) room).toNat

/-- **`tuxctlLdiscWriteWakeup`** — `tuxctl_ldisc_write_wakeup`, when `write_room` returns `room`: the
line and the bytes the driver accepts. -/
def tuxctlLdiscWriteWakeup (data : LdiscData) (room : Int) : LdiscData × List UInt8 :=
  let (buf, tx) := wakeupLoop room bufsize 0 data.tx
  ({ data with tx := tx }, driverWrite room buf)

/-- **`tuxctlLdiscPut`** — `tuxctl_ldisc_put`: the line, the bytes the driver accepts and the number of
bytes not taken. -/
def tuxctlLdiscPut (data : LdiscData) (buf : List UInt8) (room : Int) :
    LdiscData × List UInt8 × Nat :=
  let (tx, left) := data.tx.fill buf
  let (data, accepted) := tuxctlLdiscWriteWakeup { data with tx := tx } room
  (data, accepted, left.length)

end Ece391.Tux
