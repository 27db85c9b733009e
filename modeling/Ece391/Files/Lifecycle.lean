/-
# Ece391.Files.Lifecycle — descriptor tables over whole histories of a terminal.

`execute_handler` opens stdin and stdout in the new PCB and clears nothing else there, so a clean start
relies on every earlier owner of the slot having been cleaned by `halt_handler`.  The invariant `Life`
says so for the slots that are free; for the live ones it needs the forest of `Process.Forest`, with
the one current process as the only running one.  No tick and no terminal switch occurs here, so
`sched_pid` plays no role and the terminal need not be the displayed one.
-/
import Ece391.Files.Stream

open Ece391.Lib

namespace Ece391

/-! ## The events -/

/-- The calls of the processes of one terminal, with their results; an `execute` that fails is an
event too. -/
inductive LifeEvent
  | execute (fr : Frame) (command : Option (List UInt8)) (eip : Option Nat)
  | halt (status : UInt8)
  | openFile (filename : List UInt8) (ret : Int)
  | closeFile (fd : Int) (ret : Int)

/-- **`LifeStep img k e k'`** — event `e` takes the kernel from `k` to `k'`. -/
def LifeStep (img : Image) (k : Kernel) : LifeEvent → Kernel → Prop
  | .execute fr command eip, k' => executeHandler img fr command k = (k', eip)
  | .halt status, k' => k' = (haltHandler status k).1
  | .openFile filename ret, k' => CallStep img k (.openFile filename ret) k'
  | .closeFile fd ret, k' => CallStep img k (.closeFile fd ret) k'

/-- **`Fresh k`** — a booted kernel whose six PCBs were zero at boot: each shell has descriptors 0 and
1 and the other PCBs have none. -/
structure Fresh (k : Kernel) : Prop extends Booted k where
  shellTable : ∀ n, 1 ≤ n → n ≤ 3 → ∀ fd ≤ 7,
    ((k.proc.pcbOf n).pcbArr fd).flags = if fd ≤ 1 then 1 else 0
  emptyTable : ∀ n, 4 ≤ n → n ≤ programMax → ∀ fd ≤ 7, ((k.proc.pcbOf n).pcbArr fd).flags = 0

/-! ## The invariant -/

/-- **`Life p q`** — process `q` is current, and every free PCB has descriptors 2..7 closed. -/
structure Life (p : Proc) (q : Nat) : Prop where
  forest : Forest p (· = q)
  live : p.Live q
  current : p.pcbCurrent = pcbAddr q
  clean : ∀ n, 1 ≤ n → n ≤ programMax → ¬ p.Live n → ∀ fd, 2 ≤ fd → fd ≤ 7 →
    ((p.pcbOf n).pcbArr fd).flags = 0

namespace Life

variable {p p' : Proc} {q : Nat}

theorem current_pid (h : Life p q) : p.current.pid = q := h.forest.current_pid h.live h.current

theorem pcbCurrent_ne_zero (h : Life p q) : p.pcbCurrent ≠ 0 := by
  rw [h.current]
  exact pcbAddr_ne_zero h.live.2.1

theorem table_eq (h : Life p q) : p.table = (p.pcbOf q).pcbArr := by
  rw [Proc.table, Proc.current, h.current, Proc.pcbOf]

theorem addr_ne (h : Life p q) {n : Nat} (hn : n ≤ programMax) (hne : n ≠ q) :
    pcbAddr n ≠ p.pcbCurrent := by
  rw [h.current]
  exact fun heq => hne (pcbAddr_injective hn h.live.2.1 heq)

theorem of_fresh {k : Kernel} (h : Fresh k) :
    Life k.proc (k.proc.schedPid k.proc.currProcess) where
  forest := Forest.of_booted h.toBooted _
  live := (WF.of_booted h.toBooted).scheduled _
  current := h.pcbCurrent
  clean := by
    intro n h1 hmax hdead fd _ h7
    have h3 : 3 < n := by
      by_contra hsmall
      exact hdead ((WF.of_booted h.toBooted).shells n h1 (by omega))
    exact h.emptyTable n h3 hmax fd h7

/-- An execute that succeeds: the child is current, in a clean PCB. -/
theorem launched (h : Life p q) (term : Fin 3) (fr : Frame) (args : ArgBuf) {slot : Nat}
    (hslot : slot < programMax) (hfree : p.pidArr slot = 0) :
    Life (p.launched term fr slot args) (slot + 1) where
  forest := (h.forest.launched term fr args h.current h.live rfl hslot hfree).mono
    fun _ hn => Or.inl hn
  live := (live_launched hslot).mpr (Or.inl rfl)
  current := launched_pcbCurrent p term fr slot args
  clean := by
    intro n h1 hmax hdead fd h2 h7
    rw [live_launched hslot, not_or] at hdead
    rw [launched_pcbOf_of_ne hslot hmax hdead.1]
    exact h.clean n h1 hmax hdead.2 fd h2 h7

/-- A halt: the parent is current, and the PCB left behind is clean. -/
theorem halted (h : Life p q) (hbase : 3 < q) : Life p.halted (p.pcbOf q).parentPid := by
  have hpid := h.current_pid
  have hlive : ∀ n, p.halted.Live n ↔ p.Live n ∧ n ≠ q := by
    intro n
    rw [live_halted (by omega), hpid]
  obtain ⟨hpl, hpn⟩ := h.forest.parentLive q h.live hbase
  refine { forest := ?_, live := (hlive _).mpr ⟨hpl, hpn⟩, current := ?_, clean := ?_ }
  · exact (h.forest.halted h.current h.live hbase rfl).mono fun _ hn => Or.inl hn
  · rw [halted_pcbCurrent, Proc.current, h.current]
    exact h.forest.parentPcb q h.live hbase
  · intro n h1 hmax hdead fd h2 h7
    rw [Proc.pcbOf, halted_pcb]
    by_cases hn : n = q
    · rw [if_pos (by rw [hn, h.current])]
      simp [clearFlags_apply, h2, h7]
    · rw [if_neg (h.addr_ne hmax hn)]
      exact h.clean n h1 hmax (fun hl => hdead ((hlive n).mpr ⟨hl, hn⟩)) fd h2 h7

/-- A call on the current descriptor table. -/
theorem retabled (h : Life p q) {arr : Nat → FileDescriptor} (hp : p.Retabled arr p') :
    Life p' q := by
  have hlin : ∀ n, (p'.pcbOf n).lineage = (p.pcbOf n).lineage := fun n => hp.lineage _
  have hpcb : ∀ n ≤ programMax, n ≠ q → p'.pcbOf n = p.pcbOf n := fun n hn hne =>
    hp.pcb_of_ne (h.addr_ne hn hne)
  obtain ⟨rtcFlag, flag, rfl⟩ := hp
  refine { forest := h.forest.congr rfl rfl hlin, live := h.live, current := h.current, clean := ?_ }
  intro n h1 hmax hdead fd h2 h7
  rw [hpcb n hmax fun heq => hdead (heq ▸ h.live)]
  exact h.clean n h1 hmax hdead fd h2 h7

/-- What leaves the PCBs, the slots and the current process alone. -/
theorem congr (h : Life p q) (hpcb : p'.pcb = p.pcb) (hpidArr : p'.pidArr = p.pidArr)
    (hcount : p'.programCount = p.programCount) (hcur : p'.pcbCurrent = p.pcbCurrent) :
    Life p' q := by
  have hof : ∀ n, p'.pcbOf n = p.pcbOf n := fun n => by rw [Proc.pcbOf, hpcb, Proc.pcbOf]
  have hlive : ∀ n, p'.Live n ↔ p.Live n := fun n => by simp only [Proc.Live, hpidArr]
  refine
    { forest := h.forest.congr hpidArr hcount fun n => by rw [hof]
      live := (hlive q).mpr h.live, current := hcur.trans h.current, clean := ?_ }
  intro n h1 hmax hdead
  rw [hof]
  exact h.clean n h1 hmax fun hl => hdead ((hlive n).mpr hl)

end Life

/-! ## Steps -/

theorem execute_launches {img : Image} {k k' : Kernel} {fr : Frame} {command : Option (List UInt8)}
    {eip q : Nat} (h : Life k.proc q) (hs : LifeStep img k (.execute fr command (some eip)) k') :
    k.proc.programCount < programMax ∧
    ∃ args, k'.proc = k.proc.launched k.con.currTerminal fr (k.proc.slot fr) args := by
  cases command with
  | none =>
      have hfail : executeHandler img fr none k = (k.cli, none) := by simp [executeHandler]
      have hs : executeHandler img fr none k = (k', some eip) := hs
      rw [hfail] at hs
      cases hs
  | some command =>
      obtain ⟨hmax, hp, -⟩ := h.forest.execute h.current h.live hs
      exact ⟨hmax, _, hp⟩

/-- The four cases of a step from a state with process `q` current. -/
theorem lifeStep_cases {img : Image} {k k' : Kernel} {e : LifeEvent} {q : Nat} (h : Life k.proc q)
    (hs : LifeStep img k e k') :
    (∃ fr command eip, e = .execute fr command (some eip) ∧ k.proc.programCount < programMax ∧
      ∃ args, k'.proc = k.proc.launched k.con.currTerminal fr (k.proc.slot fr) args) ∨
    (k'.proc.pcb = k.proc.pcb ∧ k'.proc.pidArr = k.proc.pidArr ∧
      k'.proc.programCount = k.proc.programCount ∧ k'.proc.pcbCurrent = k.proc.pcbCurrent) ∨
    (3 < q ∧ k'.proc = k.proc.halted) ∨
    (∃ filename ret, e = .openFile filename ret ∧
      k.proc.Retabled (openTable img filename k.proc.table).1 k'.proc ∧
      ret = (openTable img filename k.proc.table).2) ∨
    (∃ fd ret, e = .closeFile fd ret ∧ k.proc.Retabled (closeTable fd k.proc.table).1 k'.proc ∧
      ret = (closeTable fd k.proc.table).2) := by
  cases e with
  | execute fr command eip =>
      cases eip with
      | none =>
          obtain ⟨argsFlag, userPage, flag, hp⟩ := executeHandler_none hs
          rw [hp]
          exact Or.inr (Or.inl ⟨rfl, rfl, rfl, rfl⟩)
      | some eip =>
          obtain ⟨hmax, args, hp⟩ := execute_launches h hs
          exact Or.inl ⟨fr, command, eip, rfl, hmax, args, hp⟩
  | halt status =>
      obtain rfl := hs
      by_cases hbase : q ≤ 3
      · rw [haltHandler_base status (by rw [h.current_pid]; exact hbase)]
        exact Or.inr (Or.inl ⟨rfl, rfl, rfl, rfl⟩)
      · rw [haltHandler_proc status h.pcbCurrent_ne_zero (by rw [h.current_pid]; omega)]
        exact Or.inr (Or.inr (Or.inl ⟨by omega, rfl⟩))
  | openFile filename ret =>
      have hs : CallStep img k (.openFile filename ret) k' := hs
      exact Or.inr (Or.inr (Or.inr (Or.inl ⟨filename, ret, rfl, hs.openFile⟩)))
  | closeFile fd ret =>
      have hs : CallStep img k (.closeFile fd ret) k' := hs
      exact Or.inr (Or.inr (Or.inr (Or.inr ⟨fd, ret, rfl, hs.closeFile h.pcbCurrent_ne_zero⟩)))

/-- **The step lemma.** -/
theorem Life.step {img : Image} {k k' : Kernel} {e : LifeEvent} {q : Nat} (h : Life k.proc q)
    (hs : LifeStep img k e k') : ∃ q', Life k'.proc q' := by
  rcases lifeStep_cases h hs with ⟨fr, command, eip, rfl, hmax, args, hp⟩ |
    ⟨hpcb, hpidArr, hcount, hcur⟩ | ⟨hbase, hp⟩ | ⟨filename, ret, rfl, hp, -⟩ |
    ⟨fd, ret, rfl, hp, -⟩
  · obtain ⟨hslot, hfree, -⟩ := h.forest.slot fr hmax
    rw [hp]
    exact ⟨_, h.launched _ fr args hslot hfree⟩
  · exact ⟨q, h.congr hpcb hpidArr hcount hcur⟩
  · rw [hp]
    exact ⟨_, h.halted hbase⟩
  · exact ⟨q, h.retabled hp⟩
  · exact ⟨q, h.retabled hp⟩

/-- **The run lemma.** -/
theorem Life.run {img : Image} {k k' : Kernel} {es : List LifeEvent} (h : Fresh k)
    (hrun : Run (LifeStep img) k es k') : ∃ q, Life k'.proc q :=
  hrun.invariant (I := fun k => ∃ q, Life k.proc q) ⟨_, .of_fresh h⟩
    fun _ _ _ ⟨_, h⟩ hs => h.step hs

/-- **No call changes the table of a process other than the current one.** -/
theorem lifeStep_frame {img : Image} {k k' : Kernel} {e : LifeEvent} {q n : Nat}
    (h : Life k.proc q) (hs : LifeStep img k e k') (hn : k.proc.Live n) (hne : n ≠ q) :
    (k'.proc.pcbOf n).pcbArr = (k.proc.pcbOf n).pcbArr := by
  have haddr := h.addr_ne hn.2.1 hne
  rcases lifeStep_cases h hs with ⟨fr, command, eip, rfl, hmax, args, hp⟩ | ⟨hpcb, -⟩ |
    ⟨hbase, hp⟩ | ⟨filename, ret, rfl, hp, -⟩ | ⟨fd, ret, rfl, hp, -⟩
  · obtain ⟨hslot, hfree, -⟩ := h.forest.slot fr hmax
    rw [hp, launched_pcbOf_of_ne hslot hn.2.1 fun heq => not_live_slot hfree (heq ▸ hn)]
  · rw [Proc.pcbOf, hpcb, Proc.pcbOf]
  · rw [hp, Proc.pcbOf, halted_pcb, if_neg haddr, Proc.pcbOf]
  · rw [Proc.pcbOf, hp.pcb_of_ne haddr, Proc.pcbOf]
  · rw [Proc.pcbOf, hp.pcb_of_ne haddr, Proc.pcbOf]

/-! ## Starting -/

/-- **A new process has descriptors 0 and 1 open and no others.** -/
theorem launched_table {p : Proc} {q : Nat} (h : Life p q) (term : Fin 3) (fr : Frame)
    (args : ArgBuf) {slot : Nat} (hslot : slot < programMax) (hfree : p.pidArr slot = 0) {fd : Nat}
    (h7 : fd ≤ 7) : (((p.launched term fr slot args).table) fd).flags ≠ 0 ↔ fd ≤ 1 := by
  have htable : (p.launched term fr slot args).table =
      startTable (p.pcbOf (slot + 1)).pcbArr := by
    rw [Proc.table, Proc.current, launched_pcbCurrent, launched_pcbArr, Proc.pcbOf]
  have hclean := h.clean (slot + 1) (by omega) hslot (not_live_slot hfree) fd
  rw [htable, startTable]
  by_cases h1 : fd = 1
  · simp [h1]
  by_cases h0 : fd = 0
  · simp [h0]
  · simp [h1, h0, hclean (by omega) h7]
    omega

/-! ## Opening -/

/-- A name in the directory: one of the first `dir_count` of the 63 entries carries it. -/
def ExistingName (img : Image) (filename : List UInt8) : Prop :=
  ∃ i : Nat, i < 63 ∧ (i : Int) < img.dirCount ∧ cstr (img.dentry i).filename = cstr filename

/-- The number of descriptors in 2..7 that are in use. -/
def openCount (arr : Nat → FileDescriptor) : Nat :=
  haltDescriptors.countP fun fd => (arr fd).flags ≠ 0

theorem freeDescriptor_eq_none_iff {arr : Nat → FileDescriptor} :
    freeDescriptor arr = none ↔ openCount arr = 6 := by
  have hlen : openCount arr = 6 ↔ ∀ fd ∈ haltDescriptors, decide ((arr fd).flags ≠ 0) = true :=
    List.countP_eq_length
  rw [hlen, freeDescriptor, List.find?_eq_none]
  simp [haltDescriptors]

theorem openCount_le (arr : Nat → FileDescriptor) : openCount arr ≤ 6 := List.countP_le_length

/-- **`open` of an existing name** that is not a prefix of the two reserved ones. -/
theorem openTable_existing {img : Image} {filename : List UInt8} (arr : Nat → FileDescriptor)
    (htypes : ∀ i : Nat, i < 63 → (i : Int) < img.dirCount → img.filetype i ≤ 2)
    (hname : ExistingName img filename) (hin : ¬ cstr filename <+: stdinName)
    (hout : ¬ cstr filename <+: stdoutName) :
    (∃ fd : Nat, freeDescriptor arr = some fd ∧ (openTable img filename arr).2 = fd) ∨
    (freeDescriptor arr = none ∧ (openTable img filename arr).2 = -1) := by
  obtain ⟨i, hi, hcount, hcstr⟩ := hname
  obtain ⟨j, hj, hfind⟩ := readDentryByName_of_entry img (Nat.lt_succ_of_lt hi) hcstr
  have hfirst : ¬ charAt filename 0 = 0 := by
    intro hzero
    apply hin
    rw [(charAt_zero_eq_zero_iff filename).mp hzero]
    exact List.nil_prefix
  have htype := htypes j (by omega) (by omega)
  obtain ⟨d, hd⟩ : ∃ d, openedEntry (img.dentry j) = some d := by
    have : (img.dentry j).filetype = img.filetype j := rfl
    unfold openedEntry
    rw [this]
    obtain h0 | h1 | h2 : img.filetype j = 0 ∨ img.filetype j = 1 ∨ img.filetype j = 2 := by omega
    · simp [h0]
    · simp [h1]
    · simp [h2]
  rw [openTable, if_neg hfirst, if_neg (fun h => hin ((strncmp_strlen_iff _ _).mp h)),
    if_neg (fun h => hout ((strncmp_strlen_iff _ _).mp h)), hfind]
  cases hfree : freeDescriptor arr with
  | none => exact Or.inr ⟨rfl, rfl⟩
  | some fd => exact Or.inl ⟨fd, rfl, by simp [hd]⟩

/-! ## Holding a descriptor -/

theorem openedEntry_flags {dentry : Dentry} {d : FileDescriptor} (h : openedEntry dentry = some d) :
    d.flags = 1 := by
  unfold openedEntry at h
  split at h
  · cases h
    rfl
  split at h
  · cases h
    rfl
  split at h
  · cases h
    rfl
  · cases h

/-- What `open` returned is in use afterwards, if it is none of the reserved descriptors. -/
theorem openTable_opened {img : Image} {filename : List UInt8} {arr : Nat → FileDescriptor} {d : Nat}
    (hret : (openTable img filename arr).2 = d) (hd : 2 ≤ d) :
    ((openTable img filename arr).1 d).flags ≠ 0 := by
  obtain ⟨-, -, dentry, -, hentry⟩ := openTable_fresh hret hd
  rw [openedEntry_flags hentry]
  exact Nat.one_ne_zero

/-- `open` returns no descriptor in 2..7 that is in use. -/
theorem openTable_ne {img : Image} {filename : List UInt8} {arr : Nat → FileDescriptor} {d : Nat}
    (hd : 2 ≤ d) (hflag : (arr d).flags ≠ 0) : (openTable img filename arr).2 ≠ d := by
  intro hret
  exact hflag (openTable_fresh hret hd).2.1

/-- A descriptor in use stays in use until its process closes it or is gone. -/
theorem lifeStep_held {img : Image} {k k' : Kernel} {e : LifeEvent} {q q' d : Nat}
    (h : Life k.proc q') (hs : LifeStep img k e k') (hq : k.proc.Live q) (hq' : k'.proc.Live q)
    (h2 : 2 ≤ d) (hclose : q = q' → ∀ ret, e ≠ .closeFile d ret)
    (hflag : ((k.proc.pcbOf q).pcbArr d).flags ≠ 0) :
    ((k'.proc.pcbOf q).pcbArr d).flags ≠ 0 := by
  by_cases hcur : q = q'
  case neg => rwa [lifeStep_frame h hs hq hcur]
  subst hcur
  have htable : ∀ p' arr, k.proc.Retabled arr p' → (p'.pcbOf q).pcbArr = arr := by
    intro p' arr hp
    rw [← hp.table, Proc.table, Proc.current, hp.pcbCurrent, h.current, Proc.pcbOf]
  rw [← h.table_eq] at hflag
  rcases lifeStep_cases h hs with ⟨fr, command, eip, rfl, hmax, args, hp⟩ | ⟨hpcb, -⟩ |
    ⟨hbase, hp⟩ | ⟨filename, ret, rfl, hp, -⟩ | ⟨fd, ret, rfl, hp, -⟩
  · obtain ⟨hslot, hfree, -⟩ := h.forest.slot fr hmax
    rwa [hp, launched_pcbOf_of_ne hslot hq.2.1 fun heq => not_live_slot hfree (heq ▸ hq),
      ← h.table_eq]
  · rwa [Proc.pcbOf, hpcb, ← Proc.pcbOf, ← h.table_eq]
  · rw [hp, live_halted (by rw [h.current_pid]; omega), h.current_pid] at hq'
    exact absurd rfl hq'.2
  · rwa [htable _ _ hp, openTable_of_open img filename h2 hflag]
  · have hne : fd ≠ d := fun heq => hclose rfl ret (by rw [heq])
    rwa [htable _ _ hp, closeTable_of_ne hne]

theorem lifeRun_held {img : Image} {k k' : Kernel} {es : List LifeEvent} {q d : Nat} {q₀ : Nat}
    (h : Life k.proc q₀) (hrun : Run (LifeStep img) k es k') (h2 : 2 ≤ d)
    (hlive : AllStates (LifeStep img) (fun m => m.proc.Live q) k es)
    (hclose : AllSteps (LifeStep img)
      (fun m e => m.proc.current.pid = q → ∀ ret, e ≠ .closeFile d ret) k es)
    (hflag : ((k.proc.pcbOf q).pcbArr d).flags ≠ 0) :
    ((k'.proc.pcbOf q).pcbArr d).flags ≠ 0 := by
  induction es generalizing k q₀ with
  | nil =>
      obtain rfl := hrun
      exact hflag
  | cons e es ih =>
      obtain ⟨m, hm, hrest⟩ := hrun
      have hq : k.proc.Live q := hlive [] _ k rfl rfl
      have hq' : m.proc.Live q := hlive [e] es m rfl ⟨m, hm, rfl⟩
      have hnot : q = q₀ → ∀ ret, e ≠ .closeFile d ret := fun heq =>
        hclose [] e es k rfl rfl (h.current_pid.trans heq.symm)
      obtain ⟨q₁, h₁⟩ := h.step hm
      exact ih h₁ hrest (hlive.tail hm) (hclose.tail hm)
        (lifeStep_held h hm hq hq' h2 hnot hflag)

/-! ## The lifecycle law -/

/-- **The descriptor-table lifecycle.** Along every run of execute, halt, open and close from a fresh
kernel, over an image whose directory entries have file types 0, 1 or 2:

* a new process has exactly descriptors 0 and 1 open;
* `open` of an existing name that is no prefix of "stdin" or "stdout" succeeds iff fewer than six of
  the descriptors 2..7 are open, and returns the smallest closed one;
* a descriptor in 2..7 that `open` returned is not returned again to the same process before that
  process closes it;
* `close` succeeds iff its argument is an open descriptor in 2..7;
* no call changes the table of a process other than the current one. -/
theorem descriptor_lifecycle (img : Image) {k0 : Kernel} (hfresh : Fresh k0)
    (htypes : ∀ i : Nat, i < 63 → (i : Int) < img.dirCount → img.filetype i ≤ 2) :
    (∀ es k fr command eip k', Run (LifeStep img) k0 es k →
      LifeStep img k (.execute fr command (some eip)) k' →
      ∀ fd ≤ 7, ((k'.proc.table fd).flags ≠ 0 ↔ fd ≤ 1)) ∧
    (∀ es k filename ret k', Run (LifeStep img) k0 es k →
      LifeStep img k (.openFile filename ret) k' → ExistingName img filename →
      ¬ cstr filename <+: stdinName → ¬ cstr filename <+: stdoutName →
      (ret ≠ -1 ↔ openCount k.proc.table < 6) ∧
      (ret ≠ -1 → ∃ fd : Nat, ret = fd ∧ 2 ≤ fd ∧ fd ≤ 7 ∧ (k.proc.table fd).flags = 0 ∧
        ∀ e, 2 ≤ e → e < fd → (k.proc.table e).flags ≠ 0)) ∧
    (∀ es k f1 d k1 mid k2 f2 ret k3, Run (LifeStep img) k0 es k →
      LifeStep img k (.openFile f1 d) k1 → 2 ≤ d → Run (LifeStep img) k1 mid k2 →
      AllStates (LifeStep img) (fun m => m.proc.Live k.proc.current.pid) k1 mid →
      AllSteps (LifeStep img) (fun m e => m.proc.current.pid = k.proc.current.pid →
        ∀ r, e ≠ .closeFile d r) k1 mid →
      k2.proc.current.pid = k.proc.current.pid → LifeStep img k2 (.openFile f2 ret) k3 → ret ≠ d) ∧
    (∀ es k fd ret k', Run (LifeStep img) k0 es k → LifeStep img k (.closeFile fd ret) k' →
      (ret = 0 ∨ ret = -1) ∧
      (ret = 0 ↔ 2 ≤ fd ∧ fd ≤ 7 ∧ (k.proc.table fd.toNat).flags ≠ 0)) ∧
    (∀ es k e k' n, Run (LifeStep img) k0 es k → LifeStep img k e k' → k.proc.Live n →
      n ≠ k.proc.current.pid → (k'.proc.pcbOf n).pcbArr = (k.proc.pcbOf n).pcbArr) := by
  refine ⟨?_, ?_, ?_, ?_, ?_⟩
  · intro es k fr command eip k' hrun hs fd h7
    obtain ⟨q, h⟩ := Life.run hfresh hrun
    obtain ⟨hmax, args, hp⟩ := execute_launches h hs
    obtain ⟨hslot, hfree, -⟩ := h.forest.slot fr hmax
    rw [hp]
    exact launched_table h _ fr args hslot hfree h7
  · intro es k filename ret k' hrun hs hname hin hout
    have hs : CallStep img k (.openFile filename ret) k' := hs
    have hret := hs.openFile.2
    have hle := openCount_le k.proc.table
    rcases openTable_existing k.proc.table htypes hname hin hout with
      ⟨fd, hfree, hval⟩ | ⟨hfree, hval⟩
    · have hne : openCount k.proc.table ≠ 6 := fun h6 => by
        rw [freeDescriptor_eq_none_iff.mpr h6] at hfree
        cases hfree
      rw [hret, hval]
      exact ⟨⟨fun _ => by omega, fun _ => by omega⟩, fun _ => ⟨fd, rfl, freeDescriptor_eq_some hfree⟩⟩
    · have h6 := freeDescriptor_eq_none_iff.mp hfree
      rw [hret, hval]
      exact ⟨⟨fun h => absurd rfl h, fun h => by omega⟩, fun h => absurd rfl h⟩
  · intro es k f1 d k1 mid k2 f2 ret k3 hrun hs1 h2 hmid hlive hclose hcur hs3
    obtain ⟨q, h⟩ := Life.run hfresh hrun
    have hs1' : CallStep img k (.openFile f1 d) k1 := hs1
    have hs3' : CallStep img k2 (.openFile f2 ret) k3 := hs3
    obtain ⟨d, rfl⟩ : ∃ n : Nat, d = n := ⟨d.toNat, by omega⟩
    -- after the first open the descriptor is in use, and it stays so up to the second one
    obtain ⟨htable, hret⟩ := hs1'.openFile
    have hflag := openTable_opened hret.symm (by omega)
    have h1 := h.retabled htable
    have hrun2 : Run (LifeStep img) k (.openFile f1 d :: mid) k2 := ⟨k1, hs1, hmid⟩
    obtain ⟨q2, h2'⟩ := Life.run hfresh (run_append.mpr ⟨k, hrun, hrun2⟩)
    rw [h.current_pid] at hlive hclose hcur
    have hheld := lifeRun_held h1 hmid (by omega) hlive hclose
      (by rwa [← h1.table_eq, htable.table])
    rw [h2'.current_pid] at hcur
    rw [hs3'.openFile.2]
    exact openTable_ne (by omega) (by rwa [h2'.table_eq, hcur])
  · intro es k fd ret k' hrun hs
    obtain ⟨q, h⟩ := Life.run hfresh hrun
    have hs : CallStep img k (.closeFile fd ret) k' := hs
    rw [(hs.closeFile h.pcbCurrent_ne_zero).2, closeTable]
    split
    next hbad => exact ⟨Or.inr rfl, fun h0 => by simp at h0, fun hok => by omega⟩
    next hok => exact ⟨Or.inl rfl, fun _ => by omega, fun _ => rfl⟩
  · intro es k e k' n hrun hs hn hne
    obtain ⟨q, h⟩ := Life.run hfresh hrun
    rw [h.current_pid] at hne
    exact lifeStep_frame h hs hn hne

theorem fresh_bootedKernel : Fresh bootedKernel where
  toBooted := booted_bootedKernel
  shellTable := by
    intro n h1 h3 fd _
    rw [bootedKernel_pcbOf h1 h3]
    simp only [shellPcb]
    split <;> rfl
  emptyTable := by
    intro n h4 h6 fd _
    obtain rfl | rfl | rfl : n = 4 ∨ n = 5 ∨ n = 6 := by
      unfold programMax at h6
      omega
    all_goals rfl

/-- In the booted kernel the first shell opens "shell" twice: with none of its descriptors 2..7 open
it gets 2, and then it does not get 2 again. -/
theorem shell_opens_twice :
    ∃ k1 ret k2, LifeStep shellImage bootedKernel (.openFile shellName 2) k1 ∧
      LifeStep shellImage k1 (.openFile shellName ret) k2 ∧
      openCount bootedKernel.proc.table < 6 ∧ ret ≠ 2 := by
  have hopen : LifeStep shellImage bootedKernel (.openFile shellName 2)
      (openHandler shellImage shellName bootedKernel).1 := Prod.ext rfl (by decide)
  generalize (openHandler shellImage shellName bootedKernel).1 = k1 at hopen
  have htypes : ∀ i : Nat, i < 63 → (i : Int) < shellImage.dirCount → shellImage.filetype i ≤ 2 := by
    intro i _ hi
    have hcount : shellImage.dirCount = 1 := by decide
    obtain rfl : i = 0 := by omega
    decide
  obtain ⟨-, hclause, hheld, -⟩ := descriptor_lifecycle shellImage fresh_bootedKernel htypes
  have hname : ExistingName shellImage shellName := ⟨0, by decide, by decide, by decide⟩
  have hfirst := hclause [] bootedKernel shellName 2 k1 rfl hopen hname (by decide) (by decide)
  have hlife := (Life.of_fresh fresh_bootedKernel).retabled (CallStep.openFile hopen).1
  have hpid : k1.proc.current.pid = bootedKernel.proc.current.pid := hlife.current_pid
  have hagain : LifeStep shellImage k1 (.openFile shellName (openHandler shellImage shellName k1).2)
      (openHandler shellImage shellName k1).1 := rfl
  refine ⟨k1, _, _, hopen, hagain, hfirst.1.mp (by decide), ?_⟩
  exact hheld [] bootedKernel shellName 2 k1 [] k1 shellName _ _ rfl hopen (by decide) rfl
    (allStates_nil (hpid ▸ hlife.current_pid ▸ hlife.live)) allSteps_nil hpid hagain

end Ece391
