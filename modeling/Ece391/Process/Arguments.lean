/-
# Ece391.Process.Arguments — the arguments of a command, from `execute` to `getargs`.

Whether a process has arguments is recorded twice: in `argsflag`, copied from a global flag that one
command with arguments raises for all later ones, and in `argbuf`, which is copied from the parsed
command itself.  `getargs_handler` asks for both, so a flag left over from another command does no
harm: the buffer of a command without arguments is empty.

* `argument` — what the three loops of the parser extract, as a property of the command alone;
* `step_args` — no event but its own halt touches the arguments of a live process;
* `arguments_survive` — the two together, over every run from boot.

The runs here are those of `EventStep` with the executes that fail added; one of these can leave the
user page remapped, so the table is well formed only up to that page (`Proc.Tabled`).
-/
import Ece391.Process.Calls

open Ece391.Lib

namespace Ece391

/-! ## The argument of a command -/

/-- The characters the first loop copies. -/
def isWord (c : UInt8) : Bool := c != 0 && c != space && c != newLine

def isSpace (c : UInt8) : Bool := c == space

/-- **`argument command`** — what is left of the command string after its first word and the spaces
that follow it. -/
def argument (command : List UInt8) : List UInt8 :=
  ((cstr command).dropWhile isWord).dropWhile isSpace

/-- The command is its word, spaces, and the argument. -/
theorem command_eq (command : List UInt8) :
    cstr command = (cstr command).takeWhile isWord ++
      (((cstr command).dropWhile isWord).takeWhile isSpace ++ argument command) := by
  rw [argument, List.takeWhile_append_dropWhile, List.takeWhile_append_dropWhile]

/-! ## The three loops -/

theorem parseName_eq (command : List UInt8) :
    parseName command = (command.takeWhile isWord, command.dropWhile isWord) := by
  induction command with
  | nil => rfl
  | cons c cs ih =>
      unfold parseName
      by_cases hstop : c = 0 ∨ c = space ∨ c = newLine
      · have hword : isWord c = false := by
          rcases hstop with rfl | rfl | rfl <;> decide
        rw [if_pos hstop, List.takeWhile_cons, List.dropWhile_cons, hword]
        rfl
      · have hword : isWord c = true := by
          simp only [not_or] at hstop
          simp [isWord, hstop]
        rw [if_neg hstop, List.takeWhile_cons, List.dropWhile_cons, hword, ih]
        rfl

theorem skipSpaces_eq (cs : List UInt8) (i : Nat) :
    skipSpaces cs i = (cs.dropWhile isSpace, i + (cs.takeWhile isSpace).length) := by
  induction cs generalizing i with
  | nil => rfl
  | cons c cs ih =>
      unfold skipSpaces
      by_cases hspace : c = space
      · rw [if_pos hspace, ih]
        simp [isSpace, hspace]
        omega
      · simp [isSpace, hspace]

/-- The third loop in closed form, if it reaches the NUL before the limit on its index. -/
theorem copyArgs_eq (cs : List UInt8) (i j : Nat) (args : Nat → UInt8)
    (hlen : i + strlen cs ≤ maxInputLength) (m : Nat) :
    copyArgs cs i j args m =
      if j ≤ m ∧ m < j + strlen cs then charAt cs (m - j) else args m := by
  induction cs generalizing i j args with
  | nil =>
      rw [copyArgs, if_neg]
      simp only [strlen, cstr, List.takeWhile_nil, List.length_nil]
      omega
  | cons c cs ih =>
      unfold copyArgs
      by_cases hc : c = 0
      · have hzero : strlen (c :: cs) = 0 := by simp [strlen, cstr, hc]
        rw [if_neg (by simp [hc]), if_neg (by omega)]
      · have hsucc : strlen (c :: cs) = strlen cs + 1 := by simp [strlen, cstr, hc]
        rw [if_pos ⟨hc, by omega⟩, ih (i + 1) (j + 1) _ (by omega), hsucc]
        by_cases hm : m = j
        · subst hm
          rw [if_neg (by omega), if_pos (by omega), Function.update_self, Nat.sub_self]
          rfl
        · rw [Function.update_of_ne hm]
          by_cases hin : j + 1 ≤ m ∧ m < j + 1 + strlen cs
          · rw [if_pos hin, if_pos (by omega), show m - j = m - (j + 1) + 1 by omega]
            rfl
          · rw [if_neg hin, if_neg (by omega)]

/-- **What the parser stores**: the argument, and NULs behind it. -/
theorem parseArgs_byte {command : List UInt8} (hlen : strlen command ≤ 126) (m : Nat) :
    (parseArgs command).byte m = charAt (argument command) m := by
  have hword : isWord 0 = false := by decide
  have hspace : isSpace 0 = false := by decide
  -- what is left of the command at the third loop
  obtain ⟨rest, hrest⟩ : ∃ rest, rest = (command.dropWhile isWord).dropWhile isSpace := ⟨_, rfl⟩
  have hargument : argument command = cstr rest := by
    rw [argument, hrest, cstr_dropWhile hspace, cstr_dropWhile hword]
  have hindex : (command.takeWhile isWord).length + ((command.dropWhile isWord).takeWhile
      isSpace).length + strlen rest = strlen command := by
    rw [hrest, Nat.add_assoc, strlen_dropWhile hspace, strlen_dropWhile hword]
  have hbyte : (parseArgs command).byte m = copyArgs rest ((command.takeWhile isWord).length +
      ((command.dropWhile isWord).takeWhile isSpace).length) 0 (fun _ => 0) m := by
    simp only [parseArgs, parseName_eq, skipSpaces_eq, hrest]
  rw [hbyte, copyArgs_eq _ _ _ _ (by unfold maxInputLength; omega), hargument]
  by_cases hm : m < strlen rest
  · rw [if_pos (by omega), Nat.sub_zero, charAt_cstr hm]
  · rw [if_neg (by omega), charAt_of_length_le (Nat.not_lt.mp hm)]

/-! ## `getargs_handler` -/

/-- **`argsStores a`** — the stores of a copy of `a` and its terminator to a buffer. -/
def argsStores (a : List UInt8) : List (Nat × UInt8) :=
  (List.range (a.length + 1)).map fun i => (i, charAt a i)

theorem argument_ne_zero (command : List UInt8) : ∀ b ∈ argument command, b ≠ 0 := by
  intro b hb
  have hmem : b ∈ cstr command :=
    (List.dropWhile_sublist _).mem ((List.dropWhile_sublist _).mem hb)
  simpa using List.mem_takeWhile_imp hmem

theorem argument_length_le (command : List UInt8) : (argument command).length ≤ strlen command :=
  ((List.dropWhile_sublist _).trans (List.dropWhile_sublist _)).length_le

/-- The two fields of a PCB that `getargs_handler` reads. -/
def Pcb.args (b : Pcb) : ArgBuf × Nat := (b.argbuf, b.argsflag)

/-- **`HasArgument b a`** — the PCB holds the argument `a`; the flag counts only if there is one. -/
structure HasArgument (b : Pcb) (a : List UInt8) : Prop where
  byte : ∀ m, b.argbuf.byte m = charAt a m
  flag : a ≠ [] → b.argsflag = 1

/-- **What `getargs` answers** to a process with the argument `a`. -/
def GetsArgument (a : List UInt8) (copy : Copy) : Prop :=
  if a = [] then copy.ret = -1 ∧ copy.stores = [] else copy.ret = 0 ∧ copy.stores = argsStores a

/-- Whatever the count, a non-empty argument is copied. -/
theorem getargsHandler_copies {k : Kernel} {a : List UInt8} (ha : ∀ b ∈ a, b ≠ 0) (hlen : a.length ≤ 126)
    (h : HasArgument k.proc.current a) (hne : a ≠ []) {buf : Nat} {nbytes : Int} (hbuf : buf ≠ 0)
    (hn : 0 ≤ nbytes) : (getargsHandler buf nbytes k).2 = ⟨0, argsStores a, []⟩ := by
  have hcur : k.cli.proc.current = k.proc.current := rfl
  have hfirst : k.proc.current.argbuf.byte 0 ≠ 0 := by
    rw [h.byte 0]
    cases a with
    | nil => exact absurd rfl hne
    | cons b a => exact ha b List.mem_cons_self
  have hgo : ¬ (buf = 0 ∨ nbytes < 0 ∨ k.proc.current.argsflag = 0) := by
    rw [h.flag hne]
    omega
  have hcopy : strcpyFrom k.proc.current.argbuf.byte (keyBufferSize - 1) 0 = argsStores a := by
    rw [strcpyFrom_eq _ a 0 _ ha (by unfold keyBufferSize; omega) fun j _ => by
      rw [Nat.zero_add, h.byte]]
    simp [argsStores]
  simp only [getargsHandler, hcur, if_neg hgo, if_pos hfirst, hcopy]

/-- Without an argument nothing is copied: the flag may be up, but the buffer is empty. -/
theorem getargsHandler_empty {k : Kernel} (h : HasArgument k.proc.current []) (buf : Nat)
    (nbytes : Int) : (getargsHandler buf nbytes k).2 = ⟨-1, [], []⟩ := by
  have hcur : k.cli.proc.current = k.proc.current := rfl
  have hzero : ¬ k.proc.current.argbuf.byte 0 ≠ 0 := not_not.mpr (h.byte 0)
  unfold getargsHandler
  dsimp only
  rw [hcur, if_neg hzero]
  split
  · rfl
  · rfl

/-- **`getargsHandler` on a PCB that holds an argument.** -/
theorem getargsHandler_getsArgument {k : Kernel} {a : List UInt8} (ha : ∀ b ∈ a, b ≠ 0)
    (hlen : a.length ≤ 126) (h : HasArgument k.proc.current a) {buf : Nat} {nbytes : Int}
    (hbuf : buf ≠ 0) (hn : (a.length : Int) < nbytes) :
    GetsArgument a (getargsHandler buf nbytes k).2 := by
  unfold GetsArgument
  by_cases hnil : a = []
  · subst hnil
    rw [if_pos rfl, getargsHandler_empty h]
    exact ⟨rfl, rfl⟩
  · rw [if_neg hnil, getargsHandler_copies ha hlen h hnil hbuf (by omega)]
    exact ⟨rfl, rfl⟩

/-! ## Sessions -/

/-- The events of a session: those of `Event`, and the executes that return -1. -/
inductive SessionEvent
  | event (e : Event)
  | failedExecute (fr : Frame) (command : Option (List UInt8))

def SessionStep (img : Image) (k : Kernel) : SessionEvent → Kernel → Prop
  | .event e, k' => EventStep img k e k'
  | .failedExecute fr command, k' => executeHandler img fr command k = (k', none)

/-- The label of a successful execute. -/
def SessionEvent.execute (fr : Frame) (command : List UInt8) : SessionEvent :=
  .event (.act (.execute fr command))

section Session

variable {img : Image} {k k' : Kernel}

/-- A successful execute, as `launched`. -/
theorem Proc.Tabled.execute (h : k.proc.Tabled) {fr : Frame} {command : List UInt8}
    (hs : SessionStep img k (.execute fr command) k') :
    ∃ slot, slot < programMax ∧ k.proc.pidArr slot = 0 ∧
      k'.proc = k.proc.launched k.proc.currProcess fr slot (parseArgs command) := by
  obtain ⟨hterm, eip, heip⟩ := hs
  have hterm : k.proc.currProcess = k.con.currTerminal := hterm
  have hmax := (executeHandler_some heip).1
  obtain ⟨hslot, hfree⟩ := h.slot fr hmax
  obtain ⟨page, hwf⟩ := id h
  have hforest : Forest k.proc k.proc.Scheduled := hwf.toForest.congr rfl rfl fun _ => rfl
  obtain ⟨-, hproc, -⟩ := hforest.execute hwf.current (h.scheduled _) heip
  exact ⟨k.proc.slot fr, hslot, hfree, hterm ▸ hproc⟩

/-- **One step of a session on the process table**: the five things it can do. -/
theorem Proc.Tabled.step_cases (h : k.proc.Tabled) {e : SessionEvent} (hs : SessionStep img k e k') :
    (∃ fr, k'.proc = k.proc.ticked fr) ∨
    (∃ fr slot args, slot < programMax ∧ k.proc.pidArr slot = 0 ∧
      k'.proc = k.proc.launched k.proc.currProcess fr slot args) ∨
    (3 < k.proc.current.pid ∧ k'.proc = k.proc.halted) ∨
    (∃ argsFlag page flag,
      k'.proc = { k.proc with argsFlag := argsFlag, userPage := page, intFlag := flag }) ∨
    (∃ arr, k.proc.Retabled arr k'.proc) := by
  cases e with
  | failedExecute fr command => exact Or.inr (Or.inr (Or.inr (Or.inl (executeHandler_none hs))))
  | event e =>
      cases e with
      | call c => exact Or.inr (Or.inr (Or.inr (Or.inr (CallStep.retabled hs))))
      | act a =>
          cases a with
          | tick fr =>
              obtain ⟨-, rfl⟩ := hs
              exact Or.inl ⟨fr, tick_proc h.scheduled_ne_zero⟩
          | terminalSwitch i =>
              obtain ⟨-, rfl⟩ := hs
              exact Or.inr (Or.inr (Or.inr (Or.inl ⟨_, _, _, rfl⟩)))
          | execute fr command =>
              obtain ⟨slot, hslot, hfree, hproc⟩ := h.execute hs
              exact Or.inr (Or.inl ⟨fr, slot, _, hslot, hfree, hproc⟩)
          | halt status =>
              obtain ⟨-, rfl⟩ := hs
              by_cases hbase : k.proc.current.pid ≤ 3
              · refine Or.inr (Or.inr (Or.inr (Or.inl ⟨k.proc.argsFlag, k.proc.userPage, false, ?_⟩)))
                exact haltHandler_base status hbase
              · have h3 : 3 < k.proc.current.pid := by omega
                refine Or.inr (Or.inr (Or.inl ⟨h3, ?_⟩))
                rw [haltHandler_proc status h.pcbCurrent_ne_zero h3]

theorem Proc.Tabled.step (h : k.proc.Tabled) {e : SessionEvent} (hs : SessionStep img k e k') :
    k'.proc.Tabled := by
  rcases h.step_cases hs with ⟨fr, hp⟩ | ⟨fr, slot, args, hslot, hfree, hp⟩ | ⟨hbase, hp⟩ |
    ⟨argsFlag, page, flag, hp⟩ | ⟨arr, harr⟩
  · rw [hp]
    exact (h.ticked fr).tabled
  · rw [hp]
    exact (h.launched fr args hslot hfree).tabled
  · rw [hp]
    exact (h.halted hbase).tabled
  · rw [hp]
    exact h.of_flags argsFlag page flag
  · exact harr.tabled h

/-- **No step but its own halt touches the arguments of a live process.** -/
theorem step_args (h : k.proc.Tabled) {e : SessionEvent} (hs : SessionStep img k e k') {n : Nat}
    (hn : k.proc.Live n) (hn' : k'.proc.Live n) :
    (k'.proc.pcbOf n).args = (k.proc.pcbOf n).args := by
  rcases h.step_cases hs with ⟨fr, hp⟩ | ⟨fr, slot, args, hslot, hfree, hp⟩ | ⟨hbase, hp⟩ |
    ⟨argsFlag, page, flag, hp⟩ | ⟨arr, rtcFlag, flag, hp⟩
  · obtain ⟨kesp, hpcb⟩ := ticked_pcb k.proc fr (pcbAddr n)
    rw [hp, Proc.pcbOf, hpcb]
    split
    · rfl
    · rfl
  · rw [hp, launched_pcbOf_of_ne hslot hn.2.1 fun heq => not_live_slot hfree (heq ▸ hn)]
  · -- the halting process is no longer live
    rw [hp, live_halted (by omega)] at hn'
    have hcur := h.current_pid
    have hlive := h.scheduled k.proc.currProcess
    have haddr : pcbAddr n ≠ k.proc.pcbCurrent := by
      rw [h.pcbCurrent]
      intro heq
      rw [← hcur] at hlive
      exact hn'.2 (pcbAddr_injective hn.2.1 hlive.2.1 heq)
    rw [hp, Proc.pcbOf, halted_pcb, if_neg haddr]
    rfl
  · rw [hp]
    rfl
  · rw [hp]
    by_cases haddr : pcbAddr n = k.proc.pcbCurrent
    · simp [Proc.pcbOf, haddr, Pcb.args, Proc.current]
    · simp [Proc.pcbOf, haddr]

end Session

/-! ## From `execute` to `getargs` -/

theorem argsFlagAfter_of_byte {args : ArgBuf} (h : args.byte 0 ≠ 0) (argsFlag : Nat) :
    argsFlagAfter args argsFlag = 1 := by
  have hany : ((List.range keyBufferSize).any fun i => args.byte i != 0) = true := by
    rw [List.any_eq_true]
    exact ⟨0, by decide, by simpa using h⟩
  unfold argsFlagAfter
  rw [if_neg (not_not.mpr args.terminated), if_pos hany]

/-- **What execute leaves in the new PCB.** -/
theorem launched_hasArgument (p : Proc) (term : Fin 3) (fr : Frame) (slot : Nat) {command : List UInt8}
    (hlen : strlen command ≤ 126) :
    HasArgument ((p.launched term fr slot (parseArgs command)).pcbOf (slot + 1)) (argument command) := by
  have hbuf : ((p.launched term fr slot (parseArgs command)).pcbOf (slot + 1)).argbuf
      = parseArgs command := by simp [Proc.launched, Proc.pcbOf]
  have hflag : ((p.launched term fr slot (parseArgs command)).pcbOf (slot + 1)).argsflag
      = argsFlagAfter (parseArgs command) p.argsFlag := by simp [Proc.launched, Proc.pcbOf]
  refine ⟨fun m => ?_, fun hne => ?_⟩
  · rw [hbuf, parseArgs_byte hlen]
  · rw [hflag]
    apply argsFlagAfter_of_byte
    rw [parseArgs_byte hlen]
    cases ha : argument command with
    | nil => exact absurd ha hne
    | cons b a => exact argument_ne_zero command b (ha ▸ List.mem_cons_self)

/-- A process starts with the argument of its command. -/
theorem Proc.Tabled.execute_hasArgument {img : Image} {k k' : Kernel} (h : k.proc.Tabled) {fr : Frame}
    {command : List UInt8} (hlen : strlen command ≤ 126)
    (hs : SessionStep img k (.execute fr command) k') :
    HasArgument k'.proc.current (argument command) := by
  obtain ⟨slot, -, -, hproc⟩ := h.execute hs
  rw [hproc, launched_current]
  exact launched_hasArgument _ _ _ _ hlen

/-- **Arguments survive from `execute` to `getargs`.**  After any history, a process launched by a
command of at most 126 characters gets exactly the argument of that command, at any time of its life
and whatever happened in between; without an argument it gets -1 and nothing is stored. -/
theorem arguments_survive (img : Image) {k0 k k1 k2 : Kernel} {history future : List SessionEvent}
    {fr : Frame} {command : List UInt8} (hboot : Booted k0)
    (hhistory : Run (SessionStep img) k0 history k) (hlen : strlen command ≤ 126)
    (hexec : SessionStep img k (.execute fr command) k1)
    (hfuture : Run (SessionStep img) k1 future k2)
    (hlife : AllStates (SessionStep img) (fun k => k.proc.Live k1.proc.current.pid) k1 future)
    (hcur : k2.proc.current.pid = k1.proc.current.pid) {buf : Nat} {nbytes : Int} (hbuf : buf ≠ 0)
    (hn : ((argument command).length : Int) < nbytes) :
    GetsArgument (argument command) (getargsHandler buf nbytes k2).2 := by
  have htabled : k.proc.Tabled := hhistory.invariant (I := fun k => k.proc.Tabled)
    (WF.of_booted hboot).tabled fun _ _ _ h hs => h.step hs
  obtain ⟨n, hn1⟩ : ∃ n, n = k1.proc.current.pid := ⟨_, rfl⟩
  have hstart : HasArgument (k1.proc.pcbOf n) (argument command) := by
    rw [hn1, ← (htabled.step hexec).current_pcbOf]
    exact htabled.execute_hasArgument hlen hexec
  rw [← hn1] at hlife hcur
  -- along the life of the process its two fields stay what they are
  have hend : k2.proc.Tabled ∧ k2.proc.Live n ∧ HasArgument (k2.proc.pcbOf n) (argument command) := by
    refine hfuture.invariant_of_allStates hlife
      (I := fun k => k.proc.Tabled ∧ k.proc.Live n ∧ HasArgument (k.proc.pcbOf n) (argument command))
      ⟨htabled.step hexec, hlife [] future k1 rfl rfl, hstart⟩ ?_
    rintro s e s' ⟨ht, hlive, harg⟩ hs hlive'
    have hargs := step_args ht hs hlive hlive'
    obtain ⟨hbuf', hflag'⟩ := Prod.mk.inj hargs
    exact ⟨ht.step hs, hlive', fun m => by rw [hbuf', harg.byte], fun hne => by rw [hflag', harg.flag hne]⟩
  have hcurrent : HasArgument k2.proc.current (argument command) := by
    rw [hend.1.current_pcbOf, hcur]
    exact hend.2.2
  exact getargsHandler_getsArgument (argument_ne_zero command)
    (Nat.le_trans (argument_length_le command) hlen) hcurrent hbuf hn

/-- The command "shell x". -/
def shellX : List UInt8 := shellName ++ [space, 120]

theorem shellX_executes :
    ∃ k1, SessionStep shellImage bootedKernel (.execute (.at 0 0) shellX) k1 := by
  have hname : readDentryByName shellImage (parseName shellX).1 = some (shellImage.dentry 0) := by decide
  obtain ⟨k1, eip, heip⟩ := executeHandler_succeeds (k := bootedKernel) (.at 0 0) (by decide) hname
    (by decide) (by decide)
  exact ⟨k1, rfl, eip, heip⟩

/-- A program started as "shell x" from the first shell gets "x" and a NUL. -/
theorem shell_gets_x :
    ∃ k1, SessionStep shellImage bootedKernel (.execute (.at 0 0) shellX) k1 ∧
      (getargsHandler 1 2 k1).2.ret = 0 ∧ (getargsHandler 1 2 k1).2.stores = [(0, 120), (1, 0)] := by
  obtain ⟨k1, hexec⟩ := shellX_executes
  have htabled : k1.proc.Tabled := (WF.of_booted booted_bootedKernel).tabled.step hexec
  have hlive : k1.proc.Live k1.proc.current.pid := htabled.current_pid ▸ htabled.scheduled _
  exact ⟨k1, hexec, arguments_survive shellImage booted_bootedKernel (run_nil.mpr rfl) (by decide) hexec
    (run_nil.mpr rfl) (allStates_nil hlive) rfl (by decide) (by decide)⟩

end Ece391
