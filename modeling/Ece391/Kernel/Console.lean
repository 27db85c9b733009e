/-
# Ece391.Kernel.Console — the text console: `lib.c`, `terminal.c`, the terminal half of `scheduler.c`.

The source has two copies of every output routine.  One copy (`putc`, `enter`, `newline_check`,
`vert_scroll`) works on `term_arr[curr_process]`, the other (the `_user` twins) on
`term_arr[curr_terminal]`; apart from the index they are the same text, except that `enter_user` also
raises `enterFlag`.  Each pair is one definition `…At t` here and the two members are that definition
at the two indices.  `curr_process` belongs to the scheduler's globals, so it is the argument `cur`.

Video memory is reached the way the kernel reaches it: through `page_table`, at the virtual address
in `term_arr[t].vid_mem_addr`.
-/
import Ece391.Kernel.State

namespace Ece391

/-- `video_addr[t]`, the virtual video page of terminal `t`. -/
def videoAddr (t : Fin 3) : Nat := videoMemAddr + kb4 * (t.val + 1)

def newLine : UInt8 := 10
def carriageReturn : UInt8 := 13
def space : UInt8 := 32

namespace Console

/-! ## Memory through the page table -/

/-- `(va & 0x3FF000) >> 12`. -/
def pageIndex (va : Nat) : Nat := va / 4096 % 1024

/-- The physical address behind a virtual one, if its page is present. -/
def translate (c : Console) (va : Nat) : Option Nat :=
  if (c.pageTable (pageIndex va)).present then
    some (4096 * (c.pageTable (pageIndex va)).base + va % 4096)
  else none

/-- A byte load; the byte behind an absent page is not modelled (every caller also stores there, and
the store faults). -/
def loadByte (c : Console) (va : Nat) : UInt8 :=
  match c.translate va with
  | some pa => c.phys pa
  | none => 0

/-- A byte store; a store to an absent page ends in `exception_14`. -/
def storeByte (c : Console) (va : Nat) (v : UInt8) : Console :=
  match c.translate va with
  | some pa => { c with phys := Function.update c.phys pa v }
  | none => { c with fault := true }

/-- `memcpy(dst, src, n)`, byte by byte. -/
def memcpy (c : Console) (dst src n : Nat) : Console :=
  (List.range n).foldl (fun c i => c.storeByte (dst + i) (c.loadByte (src + i))) c

/-! ## Cursor bookkeeping -/

/-- Assign fields of `term_arr[t]`. -/
def setTerm (c : Console) (t : Fin 3) (f : Terminal → Terminal) : Console :=
  { c with termArr := Function.update c.termArr t (f (c.termArr t)) }

/-- `screen_x = term_arr[t].screen_x; screen_y = term_arr[t].screen_y;` -/
def loadCursor (c : Console) (t : Fin 3) : Console :=
  { c with screenX := (c.termArr t).screenX, screenY := (c.termArr t).screenY }

/-- `term_arr[t].screen_x = screen_x; term_arr[t].screen_y = screen_y;`, both `uint8_t`. -/
def saveCursor (c : Console) (t : Fin 3) : Console :=
  c.setTerm t fun term => { term with screenX := c.screenX % 256, screenY := c.screenY % 256 }

/-- `update_cursor`: moves the VGA cursor to the displayed terminal's position; the globals it
borrows are put back. -/
def updateCursor (c : Console) : Console :=
  { c with
    vgaCursor := (numCols * (c.termArr c.currTerminal).screenY
      + (c.termArr c.currTerminal).screenX) % 2 ^ 16 }

/-! ## The output routines, at an index -/

/-- The body of `enter`, on terminal `t`. -/
def enterAt (c : Console) (t : Fin 3) : Console :=
  let c := c.loadCursor t
  let c :=
    if c.screenY = numRows - 1 then { c with scrollFlag := 1 }
    else { c with screenY := c.screenY + 1, scrollFlag := 0 }
  { c with screenX := 0 }.saveCursor t

/-- The body of `newline_check`, on terminal `t`. -/
def newlineCheckAt (c : Console) (t : Fin 3) : Console :=
  let c := c.loadCursor t
  let c := if c.screenY = numRows - 1 then { c with scrollFlag := 1 } else c
  { c with screenX := 0 }.saveCursor t

/-- The body of the inner loop of `vert_scroll`: cell `(k, l)` moves up one row unless it holds NUL,
and the last row is blanked. -/
def scrollCell (t : Fin 3) (c : Console) (kl : Nat × Nat) : Console :=
  let i := numCols * kl.1 + kl.2
  let j := numCols * (kl.1 - 1) + kl.2
  let c := { c with videoMem := (c.termArr t).vidMemAddr }
  let c :=
    if c.loadByte (c.videoMem + 2 * i) ≠ 0 then
      c.storeByte (c.videoMem + 2 * j) (c.loadByte (c.videoMem + 2 * i))
    else c
  if kl.1 = numRows - 1 then c.storeByte (c.videoMem + 2 * i) space else c

/-- The cells `vert_scroll` visits: rows `1 .. 24`, left to right. -/
def scrollOrder : List (Nat × Nat) :=
  (List.range (numRows - 1)).flatMap fun k => (List.range numCols).map fun l => (k + 1, l)

/-- The body of `vert_scroll`, on terminal `t`.  It writes back `screen_x` twice and `screen_y` not
at all. -/
def vertScrollAt (c : Console) (t : Fin 3) : Console :=
  let c := c.loadCursor t
  let c :=
    if c.screenY = numRows - 1 ∧ c.scrollFlag = 1 then
      { scrollOrder.foldl (scrollCell t) c with scrollFlag := 0 }
    else c
  let c := c.updateCursor
  c.setTerm t fun term => { term with screenX := c.screenX % 256 }

/-- The body of `putc`, on terminal `t`. -/
def putcAt (c : Console) (t : Fin 3) (ch : UInt8) : Console :=
  let c := { c with videoMem := (c.termArr t).vidMemAddr }.loadCursor t
  let c :=
    if ch = newLine ∨ ch = carriageReturn then
      { c with
        screenY := if c.screenY = numRows - 1 then numRows - 1 else c.screenY + 1
        screenX := 0 }
    else
      let cell := c.videoMem + 2 * (numCols * c.screenY + c.screenX)
      let c := (c.storeByte cell ch).storeByte (cell + 1) attrib
      let x := (c.screenX + 1) % numCols
      { c with screenX := x, screenY := (c.screenY + x / numCols) % numRows }
  (c.saveCursor t).updateCursor

/-! ## The routines under their own names -/

def enter (c : Console) (cur : Fin 3) : Console := c.enterAt cur

/-- `enter_user`, which also tells `terminal_read` that a line is complete. -/
def enterUser (c : Console) : Console :=
  (c.enterAt c.currTerminal).setTerm c.currTerminal fun term => { term with enterFlag := 1 }

def newlineCheck (c : Console) (cur : Fin 3) : Console := c.newlineCheckAt cur
def newlineCheckUser (c : Console) : Console := c.newlineCheckAt c.currTerminal
def vertScroll (c : Console) (cur : Fin 3) : Console := c.vertScrollAt cur
def vertScrollUser (c : Console) : Console := c.vertScrollAt c.currTerminal
def putc (c : Console) (cur : Fin 3) (ch : UInt8) : Console := c.putcAt cur ch
def putcUser (c : Console) (ch : UInt8) : Console := c.putcAt c.currTerminal ch

/-- `printf` of a text without conversions. -/
def printText (c : Console) (cur : Fin 3) (text : List UInt8) : Console :=
  (text.foldl (fun c ch => c.putc cur ch) c).updateCursor

/-! ## `terminal_write` -/

/-- One iteration of the loop of `terminal_write`, for a byte other than NUL. -/
def writeChar (cur : Fin 3) (c : Console) (ch : UInt8) : Console :=
  let c :=
    if ch = newLine ∧ (c.termArr cur).visible = 1 then
      let c := c.newlineCheckUser.vertScrollUser
      c.setTerm c.currTerminal fun term => { term with newlineTracker := 0 }
    else if ch = newLine then
      let c := (c.newlineCheck cur).vertScroll cur
      c.setTerm cur fun term => { term with newlineTracker := 0 }
    else c
  let c := if (c.termArr cur).visible = 0 then c.putc cur ch else c.putcUser ch
  let c := c.updateCursor
  let c := c.setTerm cur fun term =>
    { term with newlineTracker := (term.newlineTracker + 1) % 256 }
  if s8 (c.termArr cur).newlineTracker ≥ numCols then
    if (c.termArr cur).visible = 0 then
      let c := (c.enter cur).vertScroll cur
      c.setTerm cur fun term => { term with newlineTracker := 0 }
    else
      let c := c.enterUser.vertScrollUser
      c.setTerm c.currTerminal fun term => { term with newlineTracker := 0 }
  else c

/-- One iteration of the loop of `terminal_write`: NUL bytes are skipped. -/
def writeByte (cur : Fin 3) (c : Console) (ch : UInt8) : Console :=
  if ch ≠ 0 then c.writeChar cur ch else c

/-- **`terminalWrite`** — `terminal_write(fd, buf, nbytes)` with `buf[0..nbytes)` given; the count is
an `int8_t`. -/
def terminalWrite (c : Console) (cur : Fin 3) (buf : List UInt8) : Console × Int :=
  let c := c.loadCursor cur
  let c := c.setTerm cur fun term => { term with newlineTracker := 0, enterFlag := 0 }
  let c := buf.foldl (writeByte cur) c
  (c.saveCursor cur, s8 (buf.filter (· ≠ 0)).length)

/-! ## `terminal_read` -/

/-- The exit condition of the spin loop of `terminal_read`. -/
def LineReady (c : Console) (cur : Fin 3) : Prop :=
  (c.termArr c.currTerminal).enterFlag ≠ 0 ∧ c.keyBuffer 0 ≠ 0 ∧ (c.termArr cur).visible = 1

instance (c : Console) (cur : Fin 3) : Decidable (c.LineReady cur) := by
  unfold LineReady; infer_instance

/-- The copy loop of `terminal_read`, whose bound is `i < nbytes || i < maxInputLength`. -/
def keyCopy (c : Console) (nbytes : Nat) : List (Nat × UInt8) :=
  ((List.range (max nbytes maxInputLength)).filter fun i =>
    c.keyBuffer i ≠ 0 ∧ c.keyBuffer i ≠ newLine).map fun i => (i, c.keyBuffer i)

/-- **`terminalRead`** — `terminal_read(fd, offset, buf, nbytes)`; `none` while the loop spins. -/
def terminalRead (c : Console) (cur : Fin 3) (nbytes : Nat) : Option (Console × Copy) :=
  if c.LineReady cur then
    let stores := c.keyCopy nbytes
    let c' := { c with
      keyBuffer := fun i => if i < maxInputLength then 0 else c.keyBuffer i
      keyBufferIndex := 0 }
    some (c'.saveCursor cur,
      ⟨s8 stores.length, stores, (List.range (max nbytes maxInputLength)).map .keyBuffer⟩)
  else none

/-! ## Terminal switching (`scheduler.c`) -/

/-- The four assignments that map virtual page `va` to physical page `pa`. -/
def mapPage (c : Console) (va pa : Nat) : Console :=
  { c with
    pageTable := Function.update c.pageTable (pageIndex va)
      ((c.pageTable (pageIndex va)).setBasePte (pa / 2 ^ 12)).grant }

/-- The four assignments to `page_virtual_mem[0]` through the 20-bit field. -/
def mapUserVideo (c : Console) (pa : Nat) : Console :=
  { c with pageVirtualMem := (c.pageVirtualMem.setBasePte (pa / 2 ^ 12)).grant }

/-- `remap_video`: the terminal's virtual page back onto its own backing page. -/
def remapVideo (c : Console) (t : Fin 3) : Console :=
  (c.mapPage (c.termArr t).vidMemAddr (c.termArr t).vidMemAddr).mapUserVideo
    (c.termArr t).vidMemAddr

/-- `scheduler_remap_video`.  Its last four lines use the 10-bit field of `page_virtual_mem[0]`. -/
def schedulerRemapVideo (c : Console) (t : Fin 3) : Console :=
  let phys := if t = c.currTerminal then videoMemAddr else videoMemAddr + kb4 * (1 + t.val)
  let c := c.mapPage (videoMemAddr + kb4 * (1 + t.val)) phys
  { c with pageVirtualMem := (c.pageVirtualMem.setBaseEntry (phys / 2 ^ 12)).grant }

/-- `terminal_save_state`. -/
def terminalSaveState (c : Console) (t : Fin 3) : Console :=
  let c := c.setTerm c.currTerminal fun term => { term with visible := 0 }
  let c := c.setTerm t fun term =>
    { term with keyBuf := fun i => if i < maxInputLength then c.keyBuffer i else term.keyBuf i }
  let c := c.remapVideo t
  c.memcpy (c.termArr t).vidMemAddr videoMemAddr (numCols * numRows * 2)

/-- `terminal_restore_state`. -/
def terminalRestoreState (c : Console) (t : Fin 3) : Console :=
  let c := { c with currTerminal := t }.setTerm t fun term => { term with visible := 1 }
  let c := { c with
    keyBuffer := fun i => if i < maxInputLength then (c.termArr t).keyBuf i else c.keyBuffer i }
  let c := c.remapVideo t
  c.memcpy videoMemAddr (c.termArr t).vidMemAddr (numCols * numRows * 2)

/-- **`terminalSwitch`** — `terminal_switch(idx)`. -/
def terminalSwitch (c : Console) (idx : Nat) : Console × Int :=
  if idx = c.currTerminal.val then (c, 0)
  else if h : idx < 3 then
    let t : Fin 3 := ⟨idx, h⟩
    let c := (c.terminalSaveState c.currTerminal).terminalRestoreState t
    let c := c.updateCursor
    ((c.mapPage (c.termArr t).vidMemAddr videoMemAddr).mapUserVideo videoMemAddr, 0)
  else (c, -1)

/-- `init_terminal`. -/
def initTerminal (c : Console) : Console :=
  let c := { c with
    termArr := fun t =>
      { c.termArr t with
        screenX := 0, screenY := 0, visible := 0, vidMemAddr := videoAddr t
        newlineTracker := 0, enterFlag := 0 }
    currTerminal := 0 }
  c.setTerm 0 fun term => { term with visible := 1 }

/-- `paging_initialize`, the page of the displayed screen. -/
def pagingInitialize (c : Console) : Console :=
  { c with pageTable := fun _ => .zero }.mapPage videoMemAddr videoMemAddr

end Console

end Ece391
