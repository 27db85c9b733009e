/-
# Ece391.Tux.Receive — packet framing does not depend on how bytes arrive.

The callback reads the bytes it had saved and up to 12 in all, cuts packets out of them and saves the
rest.  Its loop over array cells is `frames` on the list of the cells (`frameLoop_spec`), and what it
saves is what `frames` leaves over; so by `frames_append` the packets handled so far are those of all
bytes consumed so far, read in one pass.
-/
import Mathlib.Data.List.Induction
import Ece391.Lib.Framing
import Ece391.Tux.Ldisc

open Ece391.Lib

namespace Ece391.Tux

/-! ## The callback -/

/-- The cells from `i` up to but not including `n`. -/
def cells (packet : Nat → UInt8) (i n : Nat) : List UInt8 := (List.range' i (n - i)).map packet

theorem cells_three {packet : Nat → UInt8} {i n : Nat} (h : i + 2 < n) :
    cells packet i n = packet i :: packet (i + 1) :: packet (i + 2) :: cells packet (i + 3) n := by
  have hlen : n - i = (n - (i + 3)) + 1 + 1 + 1 := by omega
  rw [cells, hlen, List.range'_succ, List.range'_succ, List.range'_succ]
  rfl

/-- After a skipped byte. -/
theorem cells_succ (packet : Nat → UInt8) {i n : Nat} (h : i < n) :
    cells packet i n = packet i :: cells packet (i + 1) n := by
  have hlen : n - i = (n - (i + 1)) + 1 := by omega
  rw [cells, hlen, List.range'_succ]
  rfl

/-- **The loop over the cells is the framing of their list**, and the index it stops at is inside. -/
theorem frameLoop_spec (packet : Nat → UInt8) (n fuel i : Nat) (hfuel : n ≤ i + fuel) (hi : i ≤ n) :
    (frameLoop packet n fuel i).1 = (frames framed (cells packet i n)).1 ∧
    cells packet (frameLoop packet n fuel i).2 n = (frames framed (cells packet i n)).2 ∧
    (frameLoop packet n fuel i).2 ≤ n := by
  have hend : ∀ {i}, ¬ i + 2 < n → frames framed (cells packet i n) = ([], cells packet i n) := by
    intro i h
    apply frames_of_length_le
    rw [cells, List.length_map, List.length_range']
    omega
  induction fuel generalizing i with
  | zero =>
      rw [frameLoop, hend (by omega)]
      exact ⟨rfl, rfl, hi⟩
  | succ fuel ih =>
      unfold frameLoop
      split
      next hmore =>
        rw [cells_three hmore]
        split
        next htest =>
          obtain ⟨hpackets, hrest, hle⟩ := ih (i + 3) (by omega) (by omega)
          rw [frames_packet htest, ← hpackets, ← hrest]
          exact ⟨rfl, rfl, hle⟩
        next htest =>
          rw [frames_skip htest]
          have hcells := cells_succ packet (show i < n by omega)
          rw [cells_three hmore] at hcells
          rw [(List.cons.inj hcells).2]
          exact ih (i + 1) (by omega) (by omega)
      next hmore =>
        rw [hend hmore]
        exact ⟨rfl, rfl, hi⟩

/-- The bytes saved for the next call. -/
def savedBytes (s : Tty) : List UInt8 := (List.range s.nSaved).map s.saved

/-- The saved bytes, then what was gotten. -/
theorem cells_packet (s : Tty) (got : List UInt8) :
    cells (fun i => if i < s.nSaved then s.saved i else got.getD (i - s.nSaved) 0) 0
      (s.nSaved + got.length) = savedBytes s ++ got := by
  apply List.ext_getElem
  · simp [cells, savedBytes]
  · intro i h₁ h₂
    have hlt : i < s.nSaved + got.length := by simpa [cells] using h₁
    simp only [cells, savedBytes, List.getElem_map, List.getElem_range', Nat.zero_add, Nat.one_mul,
      List.getElem_append, List.length_map, List.length_range, List.getElem_range]
    by_cases hi : i < s.nSaved
    · rw [if_pos hi, dif_pos hi]
    · rw [if_neg hi, dif_neg hi, List.getD_eq_getElem?_getD, List.getElem?_eq_getElem (by omega),
        Option.getD_some]

/-- **What the callback does**: it gets as many bytes as its window has room for, handles the packets
among the saved bytes and these, and saves what is left over. -/
structure Called (s : Tty) (data : LdiscData) (s' : Tty) (got : List UInt8) (packets : List Packet) :
    Prop where
  got_eq : got = data.rx.contents.take (12 - s.nSaved)
  ring : ∃ data', s'.discData = some data' ∧ data'.rx.contents = data.rx.contents.drop (12 - s.nSaved)
  packets_eq : packets = (frames framed (savedBytes s ++ got)).1
  saved : savedBytes s' = (frames framed (savedBytes s ++ got)).2

theorem dataCallback_spec (s : Tty) (data : LdiscData) :
    Called s data (dataCallback s data).1 (dataCallback s data).2.1 (dataCallback s data).2.2 := by
  obtain ⟨hout, hrest⟩ := data.rx.drain_spec (12 - s.nSaved)
  obtain ⟨got, hgot⟩ : ∃ got, got = (data.rx.drain (12 - s.nSaved)).1 := ⟨_, rfl⟩
  obtain ⟨packet, hpacket⟩ : ∃ packet, packet =
      fun i => if i < s.nSaved then s.saved i else got.getD (i - s.nSaved) 0 := ⟨_, rfl⟩
  obtain ⟨hpackets, hleft, -⟩ := frameLoop_spec packet (s.nSaved + got.length)
    (s.nSaved + got.length) 0 (by omega) (by omega)
  have hcells := cells_packet s got
  rw [← hpacket] at hcells
  rw [hcells] at hpackets hleft
  have hcall : dataCallback s data =
      let i := (frameLoop packet (s.nSaved + got.length) (s.nSaved + got.length) 0).2
      (⟨some ⟨(data.rx.drain (12 - s.nSaved)).2, data.tx⟩,
        fun j => if j < s.nSaved + got.length - i then packet (i + j) else s.saved j,
        s.nSaved + got.length - i⟩, got,
        (frameLoop packet (s.nSaved + got.length) (s.nSaved + got.length) 0).1) := by
    rw [hpacket, hgot]
    rfl
  rw [hcall]
  refine ⟨hgot.trans hout, ⟨_, rfl, hrest⟩, hpackets, ?_⟩
  rw [← hleft]
  simp only [savedBytes, cells, List.range'_eq_map_range, List.map_map]
  apply List.map_congr_left
  intro j hj
  rw [if_pos (List.mem_range.mp hj)]
  rfl

/-! ## Whole streams -/

/-- **`Line`** — the line discipline, with a record of all bytes the ring has accepted, all bytes the
callback has consumed and all packets it has handled. -/
structure Line where
  tty : Tty
  accepted : List UInt8
  consumed : List UInt8
  handled : List Packet

def Line.rcvBuf (l : Line) (cp : List UInt8) : Line :=
  let (tty, d) := tuxctlLdiscRcvBuf l.tty cp
  ⟨tty, l.accepted ++ d.accepted, l.consumed ++ d.consumed, l.handled ++ d.packets⟩

/-- The line after it was opened and the calls `calls` of `tuxctl_ldisc_rcv_buf`. -/
def received (rxMem txMem : Nat → UInt8) (calls : List (List UInt8)) : Line :=
  calls.foldl Line.rcvBuf ⟨tuxctlLdiscOpen loaded rxMem txMem, [], [], []⟩

/-- **`Framed l rx`** — the bytes accepted were consumed or are in the ring `rx`, in order; the packets
handled and the bytes saved are those of the bytes consumed, read in one pass. -/
structure Framed (l : Line) (rx : Ring UInt8 bufsize) : Prop where
  ring : ∃ data, l.tty.discData = some data ∧ data.rx = rx
  in_order : l.consumed ++ rx.contents = l.accepted
  handled : l.handled = (frames framed l.consumed).1
  saved : savedBytes l.tty = (frames framed l.consumed).2

theorem Framed.nSaved_le {l : Line} {rx : Ring UInt8 bufsize} (h : Framed l rx) : l.tty.nSaved ≤ 2 := by
  have hlen : (savedBytes l.tty).length = l.tty.nSaved := by simp [savedBytes]
  rw [← hlen, h.saved]
  exact length_frames_le _

theorem Framed.opened (rxMem txMem : Nat → UInt8) :
    Framed (received rxMem txMem []) (clearRing rxMem) where
  ring := ⟨_, rfl, rfl⟩
  in_order := rfl
  handled := rfl
  saved := rfl

/-- **One call.**  The ring accepts what it has room for; the callback consumes from all that is then in
the ring. -/
theorem Framed.rcvBuf {l : Line} {rx : Ring UInt8 bufsize} (h : Framed l rx) (cp : List UInt8) :
    ∃ rx', Framed (l.rcvBuf cp) rx' ∧
      (l.rcvBuf cp).accepted = l.accepted ++ cp.take (63 - rx.used) ∧
      rx'.contents = (rx.contents ++ cp.take (63 - rx.used)).drop (12 - l.tty.nSaved) := by
  obtain ⟨data, hdata, rfl⟩ := h.ring
  obtain ⟨hfill, hleft⟩ := data.rx.fill_spec cp
  have haccepted : cp.take (cp.length - (data.rx.fill cp).2.length) = cp.take (63 - data.rx.used) := by
    rw [hleft, List.length_drop, List.take_eq_take_iff]
    show min (cp.length - (cp.length - (64 - 1 - data.rx.used))) cp.length = _
    omega
  obtain ⟨hgot, ⟨data', hdata', hrest⟩, hpackets, hsaved⟩ :=
    dataCallback_spec l.tty { data with rx := (data.rx.fill cp).1 }
  have hcall : l.rcvBuf cp =
      let d := dataCallback l.tty { data with rx := (data.rx.fill cp).1 }
      ⟨d.1, l.accepted ++ cp.take (63 - data.rx.used), l.consumed ++ d.2.1, l.handled ++ d.2.2⟩ := by
    rw [← haccepted]
    unfold Line.rcvBuf tuxctlLdiscRcvBuf
    rw [hdata]
  obtain ⟨d, hd⟩ : ∃ d, d = dataCallback l.tty { data with rx := (data.rx.fill cp).1 } := ⟨_, rfl⟩
  rw [← hd] at hcall hgot hdata' hpackets hsaved
  -- the ring before the callback
  have hring : (data.rx.fill cp).1.contents = data.rx.contents ++ cp.take (63 - data.rx.used) := hfill
  simp only [hring] at hgot hrest
  rw [hcall]
  refine ⟨data'.rx, ⟨⟨data', hdata', rfl⟩, ?_, ?_, ?_⟩, rfl, hrest⟩
  · show (l.consumed ++ d.2.1) ++ data'.rx.contents = _
    rw [hgot, hrest, List.append_assoc, List.take_append_drop, ← List.append_assoc, h.in_order]
  · show l.handled ++ d.2.2 = (frames framed (l.consumed ++ d.2.1)).1
    rw [frames_append, ← h.saved, ← hpackets, ← h.handled]
  · show savedBytes d.1 = (frames framed (l.consumed ++ d.2.1)).2
    rw [frames_append, ← h.saved, ← hsaved]

theorem framed_received (rxMem txMem : Nat → UInt8) (calls : List (List UInt8)) :
    ∃ rx, Framed (received rxMem txMem calls) rx := by
  induction calls using List.reverseRecOn with
  | nil => exact ⟨_, .opened rxMem txMem⟩
  | append_singleton calls cp ih =>
      obtain ⟨rx, hrx⟩ := ih
      obtain ⟨rx', hrx', -⟩ := hrx.rcvBuf cp
      rw [received, List.foldl_append]
      exact ⟨rx', hrx'⟩

/-- Up to ten bytes fit into an empty ring, and then into the window of the callback. -/
theorem received_short (rxMem txMem : Nat → UInt8) {calls : List (List UInt8)}
    (hshort : ∀ cp ∈ calls, cp.length ≤ 10) :
    ∃ rx, Framed (received rxMem txMem calls) rx ∧ rx.contents = [] ∧
      (received rxMem txMem calls).accepted = calls.flatten := by
  induction calls using List.reverseRecOn with
  | nil => exact ⟨_, .opened rxMem txMem, rfl, rfl⟩
  | append_singleton calls cp ih =>
      obtain ⟨rx, hrx, hempty, haccepted⟩ := ih fun cp' hcp' => hshort cp' (List.mem_append_left _ hcp')
      obtain ⟨rx', hrx', haccepted', hcontents⟩ := hrx.rcvBuf cp
      have hlen : cp.length ≤ 10 := hshort cp (by simp)
      have hsaved := hrx.nSaved_le
      have hused : rx.used = 0 := by rw [← rx.length_contents, hempty, List.length_nil]
      have htake : cp.take (63 - rx.used) = cp := by
        rw [hused]
        exact List.take_of_length_le (by omega)
      rw [received, List.foldl_append]
      refine ⟨rx', hrx', ?_, ?_⟩
      · rw [hcontents, hempty, htake, List.nil_append]
        exact List.drop_eq_nil_of_le (by omega)
      · show (Line.rcvBuf (received rxMem txMem calls) cp).accepted = _
        rw [haccepted', haccepted, htake, List.flatten_append, List.flatten_singleton]

/-- **Packet framing does not depend on how bytes arrive.**  Whatever `kmalloc` returned and the calls
deliver, the bytes consumed, the last of which are the saved ones, and the contents of the receive ring
are the bytes accepted, in order; at most two bytes are saved; and the packets handled are those of the
bytes consumed, read in one pass.  If no call delivers more than ten bytes, none is dropped and the ring
is empty after each. -/
theorem framing_independent_of_arrival (rxMem txMem : Nat → UInt8) (calls : List (List UInt8)) :
    ∃ data, (received rxMem txMem calls).tty.discData = some data ∧
    (received rxMem txMem calls).consumed ++ data.rx.contents = (received rxMem txMem calls).accepted ∧
    (received rxMem txMem calls).tty.nSaved ≤ 2 ∧
    savedBytes (received rxMem txMem calls).tty <:+ (received rxMem txMem calls).consumed ∧
    (received rxMem txMem calls).handled = (frames framed (received rxMem txMem calls).consumed).1 ∧
    ((∀ cp ∈ calls, cp.length ≤ 10) →
      (received rxMem txMem calls).accepted = calls.flatten ∧ data.rx.Empty) := by
  obtain ⟨rx, hrx⟩ := framed_received rxMem txMem calls
  obtain ⟨data, hdata, rfl⟩ := hrx.ring
  refine ⟨data, hdata, hrx.in_order, hrx.nSaved_le, ?_, hrx.handled, fun hshort => ?_⟩
  · rw [hrx.saved]
    exact frames_suffix _
  · obtain ⟨rx', hrx', hempty, haccepted⟩ := received_short rxMem txMem hshort
    obtain ⟨data', hdata', rfl⟩ := hrx'.ring
    obtain rfl := Option.some.inj (hdata.symm.trans hdata')
    exact ⟨haccepted, Ring.empty_iff_contents.mpr hempty⟩

end Ece391.Tux
