/-
# Ece391.Fish.Phase — the phases of the blinking characters, on the screen and in the structures.

The character at the location of an entry is to be its ON_CHAR while the low bit of STATUS is set and its
OFF_CHAR otherwise (`Shows`).  `mp1_ioctl_add` writes the two together and the tasklet changes them together.
`mp1_ioctl_sync` copies STATUS and then chooses the character with a `cmovl` after a `testb`; that is the
condition "less", and the bits left by the mask 1 are never negative, so it always writes OFF_CHAR
(`syncChar_eq`).  The exact condition for runs is `phases_shown_iff`.
-/
import Ece391.Fish.BlinkList

open Ece391.Lib

namespace Ece391.Fish

/-- The character of the current phase. -/
def Blink.shown (b : Blink) : UInt8 := if b.isOn then b.onChar else b.offChar

namespace Blinkers

variable {s s' : Blinkers} {l : List Slot} {p q : Slot}

/-- **`Shows s`** — each entry of the list is on the screen in its current phase. -/
def Shows (s : Blinkers) : Prop :=
  ∀ p, s.OnList p → s.vmem (s.blinkArray p).offset = (s.blinkArray p).shown

/-- **`DistinctLocations s`** — no two entries are at one place, and none in the top left corner. -/
structure DistinctLocations (s : Blinkers) : Prop where
  ne_zero : ∀ p, s.OnList p → (s.blinkArray p).location ≠ 0
  injective : ∀ p q, s.OnList p → s.OnList q → (s.blinkArray p).location = (s.blinkArray q).location → p = q

/-- **`SyncsOff s op`** — the operation does not copy the phase "on" to an entry with two characters. -/
def SyncsOff (s : Blinkers) (op : Op) : Prop :=
  ∀ arg src dst, op = .sync arg → s.OnList src → s.OnList dst →
    (s.blinkArray src).location = (arg >>> 16).setWidth 16 →
    (s.blinkArray dst).location = (arg &&& 0xFFFF).setWidth 16 →
    (s.blinkArray src).isOn = false ∨ (s.blinkArray dst).onChar = (s.blinkArray dst).offChar

theorem offset_eq_iff {b c : Blink} : b.offset = c.offset ↔ b.location = c.location := by
  rw [Blink.offset, Blink.offset, Nat.mul_right_inj two_ne_zero, BitVec.toNat_inj]

/-! ## The routines -/

/-- `sync` writes OFF_CHAR, whatever the phase. -/
theorem syncChar_eq (b : Blink) : syncChar b = b.offChar := by
  have hmsb : (1 &&& b.status.setWidth 8 : BitVec 8).msb = false := by
    rw [BitVec.msb_and]
    rfl
  rw [syncChar, X86.less_testFlags, hmsb]
  rfl

/-- The character of the other phase. -/
theorem shown_flip (b : Blink) (countdown : BitVec 16) :
    { b with countdown := countdown, status := b.status ^^^ 1 }.shown =
      if b.isOn then b.offChar else b.onChar := by
  have hflip : (b.status ^^^ 1).getLsbD 0 = !b.status.getLsbD 0 := by
    rw [BitVec.getLsbD_xor]
    exact Bool.xor_true _
  unfold Blink.shown Blink.isOn
  rw [hflip]
  cases b.status.getLsbD 0 with
  | true => rfl
  | false => rfl

theorem shown_marked (user : Blink) : (marked user).shown = user.onChar :=
  if_pos (show (1 : BitVec 16).getLsbD 0 = true by decide)

/-- What `sync` leaves of its second entry and of the screen. -/
theorem synced_eq (s : Blinkers) (src dst : Slot) :
    (s.syncCopy src dst).syncDisplay dst =
      { s with
        blinkArray := Function.update s.blinkArray dst ((s.blinkArray dst).timedAs (s.blinkArray src))
        vmem := Function.update s.vmem (s.blinkArray dst).offset (s.blinkArray dst).offChar } := by
  have hentry : (s.syncCopy src dst).blinkArray dst = (s.blinkArray dst).timedAs (s.blinkArray src) :=
    Function.update_self _ _ _
  rw [syncDisplay, hentry, syncChar_eq]
  rfl

/-- ... which is the character of its phase exactly in these cases. -/
theorem shown_timedAs_iff (b c : Blink) :
    b.offChar = (b.timedAs c).shown ↔ c.isOn = false ∨ b.onChar = b.offChar := by
  show b.offChar = (if c.isOn then b.onChar else b.offChar) ↔ _
  cases c.isOn with
  | true => simp [eq_comm]
  | false => simp

/-- **An entry and its character, written together.**  The other entries are left alone if none of them is at
that place. -/
theorem shown_update {vmem : Nat → UInt8} {blinkArray : Slot → Blink} {b : Blink} {char : UInt8}
    (hchar : char = b.shown)
    (hothers : ∀ q ∈ l, q ≠ p → (blinkArray q).location ≠ b.location ∧
      vmem (blinkArray q).offset = (blinkArray q).shown) :
    ∀ q ∈ l, Function.update vmem b.offset char (Function.update blinkArray p b q).offset =
      (Function.update blinkArray p b q).shown := by
  intro q hq
  by_cases hqp : q = p
  · rw [hqp, Function.update_self, Function.update_self, hchar]
  · obtain ⟨hlocation, hshown⟩ := hothers q hq hqp
    rw [Function.update_of_ne hqp, Function.update_of_ne fun h => hlocation (offset_eq_iff.mp h), hshown]

/-- A turn of the tasklet keeps the phases on the screen. -/
theorem turn_shows (hothers : ∀ q ∈ l, q ≠ p → (s.blinkArray q).location ≠ (s.blinkArray p).location)
    (hshows : ∀ q ∈ l, s.vmem (s.blinkArray q).offset = (s.blinkArray q).shown) :
    ∀ q ∈ l, (s.turn p).vmem ((s.turn p).blinkArray q).offset = ((s.turn p).blinkArray q).shown := by
  obtain ⟨countdown, heq⟩ | ⟨countdown, heq⟩ := s.turn_cases p
  · rw [heq]
    intro q hq
    by_cases hqp : q = p
    · subst hqp
      simp only [Function.update_self]
      exact hshows q hq
    · simp only [Function.update_of_ne hqp]
      exact hshows q hq
  · rw [heq]
    exact shown_update (shown_flip _ countdown).symm fun q hq hqp => ⟨hothers q hq hqp, hshows q hq⟩

/-- ... and so does the tasklet. -/
theorem tasklet_shows (hinjective : ∀ p ∈ l, ∀ q ∈ l, (s.blinkArray p).location = (s.blinkArray q).location → p = q)
    (hshows : ∀ q ∈ l, s.vmem (s.blinkArray q).offset = (s.blinkArray q).shown) :
    ∀ q ∈ l, (l.foldl Blinkers.turn s).vmem ((l.foldl Blinkers.turn s).blinkArray q).offset =
      ((l.foldl Blinkers.turn s).blinkArray q).shown := by
  -- the turns change no location
  refine (foldl_turn (P := fun t => (∀ q, (t.blinkArray q).location = (s.blinkArray q).location) ∧
    ∀ q ∈ l, t.vmem (t.blinkArray q).offset = (t.blinkArray q).shown) ⟨fun _ => rfl, hshows⟩ ?_).2
  intro t ht p hp
  refine ⟨fun q => (turn_location t p q).trans (ht.1 q), turn_shows (fun q hq hqp heq => hqp ?_) ht.2⟩
  rw [ht.1, ht.1] at heq
  exact hinjective q hq p hp heq

/-! ## The operations -/

/-- **An operation keeps every entry in its phase on the screen**, a `sync` that copies the phase "on" to an
entry with two characters excepted. -/
theorem Effect.shows {l' : List Slot} {op : Op} (he : Effect s l op s' l') (h : Tidy s l) (h' : Tidy s' l')
    (hdistinct : DistinctLocations s) (hdistinct' : DistinctLocations s') (hshows : Shows s)
    (hsync : SyncsOff s op) : Shows s' := by
  have hl : ∀ q ∈ l, s.vmem (s.blinkArray q).offset = (s.blinkArray q).shown :=
    fun q hq => hshows q (h.onList_iff.mpr hq)
  suffices hall : ∀ q ∈ l', s'.vmem (s'.blinkArray q).offset = (s'.blinkArray q).shown from
    fun q hq => hall q (h'.onList_iff.mp hq)
  cases he with
  | stays => exact hl
  | @adds user p hlocation hmalloc =>
      refine shown_update (shown_marked user).symm fun q hq hqp => ⟨fun heq => hqp ?_, hl q (List.mem_of_ne_of_mem hqp hq)⟩
      apply hdistinct'.injective q p (h'.onList_iff.mpr hq) (h'.onList_iff.mpr List.mem_cons_self)
      show (Function.update s.blinkArray p (marked user) q).location =
        (Function.update s.blinkArray p (marked user) p).location
      rw [Function.update_of_ne hqp, Function.update_self, heq]
  | @removes arg p l₁ l₂ hsplit =>
      subst hsplit
      intro q hq
      obtain ⟨hqp, hin⟩ := (mem_unlinked h.nodup q).mp hq
      show s.vmem (Function.update s.blinkArray p Blink.zero q).offset =
        (Function.update s.blinkArray p Blink.zero q).shown
      rw [Function.update_of_ne hqp]
      exact hl q hin
  | @syncs arg esi edi hesi hedi hhigh hlow =>
      have hchar := (shown_timedAs_iff _ _).mpr
        (hsync arg esi edi rfl (h.onList_iff.mpr hesi) (h.onList_iff.mpr hedi) hhigh hlow)
      rw [synced_eq]
      refine shown_update (b := (s.blinkArray edi).timedAs (s.blinkArray esi)) hchar
        fun q hq hqe => ⟨fun heq => hqe ?_, hl q hq⟩
      exact hdistinct.injective q edi (h.onList_iff.mpr hq) (h.onList_iff.mpr hedi) heq
  | ticks =>
      refine tasklet_shows (fun p hp q hq => ?_) hl
      exact hdistinct.injective p q (h.onList_iff.mpr hp) (h.onList_iff.mpr hq)

/-- With distinct locations, `sync` takes the entries at the two locations of its argument. -/
theorem Listed.sync_does (h : Listed s l) (hdistinct : DistinctLocations s) {arg : BitVec 32}
    {src dst : Slot} (hsrc : src ∈ l) (hdst : dst ∈ l)
    (hhigh : (s.blinkArray src).location = (arg >>> 16).setWidth 16)
    (hlow : (s.blinkArray dst).location = (arg &&& 0xFFFF).setWidth 16) :
    Does s (.sync arg) ((s.syncCopy src dst).syncDisplay dst) := by
  have hfind : ∀ {location : BitVec 16} {p : Slot}, p ∈ l → (s.blinkArray p).location = location →
      (l.find? fun p => (s.blinkArray p).location == location) = some p := by
    intro location p hp hlocation
    have hsome : (l.find? fun p => (s.blinkArray p).location == location).isSome :=
      List.find?_isSome.mpr ⟨p, hp, beq_iff_eq.mpr hlocation⟩
    obtain ⟨q, hq⟩ := Option.isSome_iff_exists.mp hsome
    have hq' : (s.blinkArray q).location = location := by simpa using List.find?_some hq
    rw [hq, hdistinct.injective q p (h.onList_iff.mpr (List.mem_of_find?_eq_some hq)) (h.onList_iff.mpr hp)
      (hq'.trans hlocation.symm)]
  rw [Does, run, h.ioctlSync_eq, hfind hsrc hhigh, hfind hdst hlow, Option.map_some]

/-- **One step.** -/
theorem Tidy.shows_step_iff (h : Tidy s l) (hshows : Shows s) {op : Op} (hdistinct : DistinctLocations s)
    (hdistinct' : ∀ s', Does s op s' → DistinctLocations s') :
    (∀ s', Does s op s' → Shows s') ↔ SyncsOff s op := by
  have hcorner : OffCorner s l := fun p hp => hdistinct.ne_zero p (h.onList_iff.mpr hp)
  constructor
  · rintro hnext arg src dst rfl hsrc hdst hhigh hlow
    have hdst' := h.onList_iff.mp hdst
    have hs := h.toListed.sync_does hdistinct (h.onList_iff.mp hsrc) hdst' hhigh hlow
    have hlisted : Listed ((s.syncCopy src dst).syncDisplay dst) l := ⟨h.chain, h.nodup⟩
    have hshown := hnext _ hs dst (hlisted.onList_iff.mpr hdst')
    rw [synced_eq] at hshown
    simp only [Function.update_self] at hshown
    rw [← shown_timedAs_iff, ← hshown]
    exact (Function.update_self (s.blinkArray dst).offset _ s.vmem).symm
  · intro hsync s' hs
    obtain ⟨l', he⟩ := h.does hs
    have h' := he.tidy h (h.allocatesFresh hcorner op)
    exact he.shows h h' hdistinct (hdistinct' s' hs) hshows hsync

/-- An operation other than `mp1_ioctl_add` keeps the locations distinct. -/
theorem Effect.distinctLocations {l' : List Slot} {op : Op} (he : Effect s l op s' l') (h : Tidy s l)
    (h' : Tidy s' l') (hop : ∀ user, op ≠ .add user) (hdistinct : DistinctLocations s) :
    DistinctLocations s' := by
  have hkept : ∀ {q}, s'.OnList q → s.OnList q ∧ (s'.blinkArray q).location = (s.blinkArray q).location := by
    intro q hq
    obtain ⟨user, hadd, -⟩ | ⟨hin, hlocation⟩ := he.location h (h'.onList_iff.mp hq)
    · exact absurd hadd (hop user)
    · exact ⟨h.onList_iff.mpr hin, hlocation⟩
  constructor
  · intro p hp
    rw [(hkept hp).2]
    exact hdistinct.ne_zero p (hkept hp).1
  · intro p q hp hq heq
    rw [(hkept hp).2, (hkept hq).2] at heq
    exact hdistinct.injective p q (hkept hp).1 (hkept hq).1 heq

/-- ... and so does a run of such operations. -/
theorem Tidy.distinctLocations (h : Tidy s l) (hdistinct : DistinctLocations s) {ops : List Op}
    (hops : ∀ user, .add user ∉ ops) : AllStates Does DistinctLocations s ops := by
  induction ops generalizing s l with
  | nil => exact allStates_nil hdistinct
  | cons op ops ih =>
      refine .cons hdistinct fun m hm => ?_
      have hop : ∀ user, op ≠ .add user := fun user hadd => hops user (hadd ▸ List.mem_cons_self)
      obtain ⟨l', he⟩ := h.does hm
      have h' := he.tidy h fun user _ hadd => absurd hadd (hop user)
      exact ih h' (he.distinctLocations h h' hop hdistinct) fun user hin => hops user (List.mem_cons_of_mem op hin)

/-- Without a `sync` no phase is copied. -/
theorem syncsOff_of_not_mem {ops : List Op} (hops : ∀ arg, .sync arg ∉ ops) : AllSteps Does SyncsOff s ops := by
  rintro before op after m hmem - arg src dst rfl
  exact absurd (hmem ▸ List.mem_append_right _ List.mem_cons_self) (hops arg)

theorem does_unique (s : Blinkers) (op : Op) (s₁ s₂ : Blinkers) (h₁ : Does s op s₁) (h₂ : Does s op s₂) : s₁ = s₂ :=
  Option.some.inj (h₁.symm.trans h₂)

/-- Runs of the tasklet. -/
theorem Listed.run_tasklets (h : Listed s l) (n : Nat) :
    Run Does s (List.replicate n .tasklet) ((fun s => l.foldl Blinkers.turn s)^[n] s) ∧
    Listed ((fun s => l.foldl Blinkers.turn s)^[n] s) l := by
  induction n generalizing s with
  | zero => exact ⟨rfl, h⟩
  | succ n ih =>
      have hnext : Listed (l.foldl Blinkers.turn s) l :=
        foldl_turn (P := fun s => Listed s l) h fun s hs p _ => hs.turn p
      obtain ⟨hrun, hlisted⟩ := ih hnext
      exact ⟨⟨_, h.tasklet_eq, hrun⟩, hlisted⟩

/-! ## The main result -/

/-- **When the screen shows the phase of each blinker.**  For every sequence of operations from an empty list
in which the entries always have distinct, non-zero locations: after each of them the character at the location
of every entry is the one of its phase, exactly if no `sync` copies the phase "on" to an entry whose two
characters differ. -/
theorem phases_shown_iff (vmem : Nat → UInt8) {ops : List Op}
    (hdistinct : AllStates Does DistinctLocations (start vmem) ops) :
    AllStates Does Shows (start vmem) ops ↔ AllSteps Does SyncsOff (start vmem) ops := by
  have hstart : Shows (start vmem) := fun p hp =>
    absurd ((start_tidy vmem).onList_iff.mp hp) List.not_mem_nil
  have hexact : AllStates Does Shows (start vmem) ops ∧ AllSteps Does (fun _ _ => True) (start vmem) ops ↔
      AllSteps Does SyncsOff (start vmem) ops := by
    refine allStates_and_allSteps_iff (I := fun s => ∃ l, Tidy s l) ?_ ?_ ⟨[], start_tidy vmem⟩ hstart
      (hdistinct.before.and hdistinct.steps)
    · rintro s op s' ⟨l, hl⟩ - ⟨hd, -⟩ - hs -
      obtain ⟨l', he⟩ := hl.does hs
      have hcorner : OffCorner s l := fun p hp => hd.ne_zero p (hl.onList_iff.mpr hp)
      exact ⟨l', he.tidy hl (hl.allocatesFresh hcorner op)⟩
    · rintro s op ⟨l, hl⟩ hshows ⟨hd, hd'⟩
      rw [true_and]
      exact hl.shows_step_iff hshows hd hd'
  rwa [and_iff_left allSteps_true] at hexact

/-! ## Two entries -/

/-- The letters of `main`, at a location. -/
def letterAt (location : BitVec 16) : Blink := ⟨location, 73, 77, 7, 6, 0, 0⟩

/-- An entry at location 40, and one at location 540. -/
def twoLetters : Blinkers :=
  ((start fun _ => 0).insert 0 (marked (letterAt 40))).insert 1 (marked (letterAt 540))

theorem does_letters :
    Does (start fun _ => 0) (.add (letterAt 40)) ((start fun _ => 0).insert 0 (marked (letterAt 40))) ∧
    Does ((start fun _ => 0).insert 0 (marked (letterAt 40))) (.add (letterAt 540)) twoLetters := by
  refine ⟨does_add (by decide) (malloc_eq_some_iff.mpr ⟨rfl, fun q hq => absurd hq (Fin.not_lt_zero q)⟩),
    does_add (by decide) (malloc_eq_some_iff.mpr ⟨rfl, fun q hq => ?_⟩)⟩
  obtain rfl : q = 0 := Fin.ext (Nat.lt_one_iff.mp hq)
  decide

theorem twoLetters_listed : Listed twoLetters [1, 0] :=
  ((start_tidy _).toListed.insert List.not_mem_nil _).insert (by decide) _

theorem Listed.distinctLocations (h : Listed s l) (hne : 0 ∉ l.map fun p => (s.blinkArray p).location)
    (hnd : (l.map fun p => (s.blinkArray p).location).Nodup) : DistinctLocations s where
  ne_zero p hp hzero := hne (List.mem_map.mpr ⟨p, h.onList_iff.mp hp, hzero⟩)
  injective _ _ hp hq heq := List.inj_on_of_nodup_map hnd (h.onList_iff.mp hp) (h.onList_iff.mp hq) heq

theorem twoLetters_distinct : DistinctLocations twoLetters :=
  twoLetters_listed.distinctLocations (by decide) (by decide +kernel)

theorem letters_distinct :
    AllStates Does DistinctLocations (start fun _ => 0) [.add (letterAt 40), .add (letterAt 540)] := by
  obtain ⟨hfirst, hsecond⟩ := does_letters
  refine .cons ((start_tidy _).toListed.distinctLocations List.not_mem_nil List.nodup_nil) fun m hm => ?_
  obtain rfl := Option.some.inj (hfirst.symm.trans hm)
  refine .cons ?_ fun m hm => allStates_nil ?_
  · exact ((start_tidy _).toListed.insert List.not_mem_nil _).distinctLocations (by decide)
      (by decide)
  · obtain rfl := Option.some.inj (hsecond.symm.trans hm)
    exact twoLetters_distinct

/-- The first letter after a tick, and then the second letter. -/
def lateLetter : Blinkers :=
  (((start fun _ => 0).insert 0 (marked (letterAt 40))).turn 0).insert 1 (marked (letterAt 540))

/-- The way there: the list stays in order, and no two letters are at one place. -/
theorem does_lateLetter :
    Run Does (start fun _ => 0) [.add (letterAt 40), .tasklet, .add (letterAt 540)] lateLetter ∧
    Tidy lateLetter [1, 0] ∧
    AllStates Does DistinctLocations (start fun _ => 0) [.add (letterAt 40), .tasklet, .add (letterAt 540)] := by
  have hstart := start_tidy fun _ => 0
  have hmalloc : (start fun _ => 0).malloc = some 0 :=
    malloc_eq_some_iff.mpr ⟨rfl, fun q hq => absurd hq (Fin.not_lt_zero q)⟩
  have hfirst : Does _ (.add (letterAt 40)) _ := does_add (by decide) hmalloc
  have hadds : Effect _ [] (.add (letterAt 40)) _ _ := .adds (by decide) hmalloc
  have hone := hadds.tidy hstart (hstart.allocatesFresh nofun _)
  have htick : Does _ .tasklet _ := hone.toListed.tasklet_eq
  have hturned := Effect.ticks.tidy hone fun _ _ hadd => nomatch hadd
  have hapart := hturned.toListed.distinctLocations (by decide) (by decide)
  have hmalloc' : ([0].foldl Blinkers.turn ((start fun _ => 0).insert 0 (marked (letterAt 40)))).malloc = some 1 := by
    refine malloc_eq_some_iff.mpr ⟨rfl, fun q hq => ?_⟩
    obtain rfl : q = 0 := Fin.ext (Nat.lt_one_iff.mp hq)
    decide
  have hsecond : Does _ (.add (letterAt 540)) _ := does_add (by decide) hmalloc'
  have hadds' : Effect _ [0] (.add (letterAt 540)) _ _ := .adds (by decide) hmalloc'
  have hlate := hadds'.tidy hturned
    (hturned.allocatesFresh (fun p hp => hapart.ne_zero p (hturned.onList_iff.mpr hp)) _)
  refine ⟨⟨_, hfirst, _, htick, _, hsecond, rfl⟩, hlate, ?_⟩
  refine .cons (hstart.toListed.distinctLocations List.not_mem_nil List.nodup_nil) fun m hm => ?_
  obtain rfl := does_unique _ _ _ _ hfirst hm
  refine .cons (hone.toListed.distinctLocations (by decide) (by decide)) fun m hm => ?_
  obtain rfl := does_unique _ _ _ _ htick hm
  refine .cons hapart fun m hm => allStates_nil ?_
  obtain rfl := does_unique _ _ _ _ hsecond hm
  exact hlate.toListed.distinctLocations (by decide +kernel) (by decide +kernel)

/-- The second letter is added a tick after the first, and takes the phase of the first when that is off. -/
def syncedOff : List Op :=
  [.add (letterAt 40), .tasklet, .add (letterAt 540)] ++ (List.replicate 6 .tasklet ++
    [.sync 0x28021C, .tasklet])

/-- The letters are shown as they blink. -/
theorem letters_shown : AllStates Does Shows (start fun _ => 0) syncedOff := by
  obtain ⟨hadds, hlate, hdistinct⟩ := does_lateLetter
  have hrest : AllStates Does DistinctLocations lateLetter (List.replicate 6 .tasklet ++ [.sync 0x28021C, .tasklet]) :=
    hlate.distinctLocations (hdistinct _ [] _ (List.append_nil _).symm hadds) (by simp)
  obtain ⟨hticks, hlisted⟩ := hlate.toListed.run_tasklets 6
  refine (phases_shown_iff _ (hdistinct.append fun m hm => ?_)).mpr ?_
  · obtain rfl := Run.unique does_unique hadds hm
    exact hrest
  refine (syncsOff_of_not_mem (by simp)).append fun m hm => (syncsOff_of_not_mem (by simp)).append fun n hn =>
    .cons ?_ fun _ _ => syncsOff_of_not_mem (by simp)
  obtain rfl := Run.unique does_unique hadds hm
  obtain rfl := Run.unique does_unique hticks hn
  -- the first letter is off by now
  rintro _ src dst ⟨rfl⟩ hsrc - hhigh -
  obtain rfl | rfl : src = 1 ∨ src = 0 := by simpa using hlisted.onList_iff.mp hsrc
  · exact absurd hhigh (by decide +kernel)
  · exact .inl (by decide +kernel)

/-- The second is synchronised to the first, which is on: it is on, and its OFF_CHAR on the screen. -/
theorem sync_shows_off_char :
    AllStates Does DistinctLocations (start fun _ => 0)
      [.add (letterAt 40), .add (letterAt 540), .sync 0x28021C] ∧
    ¬AllStates Does Shows (start fun _ => 0) [.add (letterAt 40), .add (letterAt 540), .sync 0x28021C] := by
  have hsync : Does twoLetters (.sync 0x28021C) ((twoLetters.syncCopy 0 1).syncDisplay 1) := by
    apply twoLetters_listed.sync_does twoLetters_distinct
    all_goals decide
  have hlisted : Listed ((twoLetters.syncCopy 0 1).syncDisplay 1) [1, 0] :=
    ⟨twoLetters_listed.chain, twoLetters_listed.nodup⟩
  obtain ⟨hfirst, hsecond⟩ := does_letters
  have hrun : Run Does (start fun _ => 0) [.add (letterAt 40), .add (letterAt 540), .sync 0x28021C]
      ((twoLetters.syncCopy 0 1).syncDisplay 1) :=
    ⟨_, hfirst, _, hsecond, _, hsync, rfl⟩
  have hdistinct := letters_distinct.snoc (a := .sync 0x28021C) fun s' hs' => by
    obtain rfl := Run.unique does_unique hrun hs'
    exact hlisted.distinctLocations (by decide) (by decide +kernel)
  refine ⟨hdistinct, fun hall => ?_⟩
  have hshows := hall _ [] _ (List.append_nil _).symm hrun 1 (hlisted.onList_iff.mpr List.mem_cons_self)
  exact absurd hshows (by decide)

end Blinkers

end Ece391.Fish
