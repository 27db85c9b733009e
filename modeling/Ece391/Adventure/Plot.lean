/-
# Ece391.Adventure.Plot — the story of the adventure game, without its screens.

What the commands of `world.c` mean for the story: where the objects are, which accomplishments are
reached, where the plane of the cockpit leads, which of its two photos the car site shows.  A `Turn`
changes the plot in the room the player stands in, a `Walk` leads to another room.  Lists, coordinates,
messages and the look into the inventory are gone.

Two invariants are proved here of every turn and every walk.  `Earned` says that nothing is reached
before what it takes (`zone` cuts the map at its four gates), `Conserved` that the objects that turn
into one another are neither lost nor doubled.
-/
import Ece391.Adventure.Commands

namespace Ece391.Adventure

/-! ## The plot -/

/-- **`Plot`** — what the story is about: the objects' locations, the flags, the `enter` of the cockpit,
and the photo the car site shows with the one it is swapped for. -/
structure Plot where
  loc : ObjId → Option RoomId
  flags : Flag → Bool
  takeoff : Option RoomId
  carView : Option Photo
  carSwap : Option Photo

def World.plot (w : World) : Plot :=
  ⟨w.loc, w.flags, (w.room .cockpit).enter, (w.room .carSite).view, w.swapPhoto .car⟩

namespace Plot

/-- An object goes to a room, or to limbo. -/
def move (p : Plot) (o : ObjId) (l : Option RoomId) : Plot := { p with loc := Function.update p.loc o l }

/-- Something is accomplished. -/
def mark (p : Plot) (f : Flag) : Plot := { p with flags := Function.update p.flags f true }

/-- The cockpit leads into the air. -/
def link (p : Plot) : Plot := { p with takeoff := some .overWill }

/-- The car site shows its other photo. -/
def swapCar (p : Plot) : Plot := { p with carView := p.carSwap, carSwap := p.carView }

/-- The object is somewhere. -/
def Has (p : Plot) (o : ObjId) : Prop := p.loc o ≠ none

section Fields

variable (p : Plot) (o : ObjId) (l : Option RoomId) (f : Flag)

@[simp] theorem move_loc (o' : ObjId) : (p.move o l).loc o' = if o' = o then l else p.loc o' :=
  Function.update_apply _ _ _ _
@[simp] theorem move_flags : (p.move o l).flags = p.flags := rfl
@[simp] theorem move_takeoff : (p.move o l).takeoff = p.takeoff := rfl
@[simp] theorem move_carView : (p.move o l).carView = p.carView := rfl
@[simp] theorem move_carSwap : (p.move o l).carSwap = p.carSwap := rfl

@[simp] theorem mark_loc : (p.mark f).loc = p.loc := rfl
@[simp] theorem mark_flags (f' : Flag) : (p.mark f).flags f' = if f' = f then true else p.flags f' :=
  Function.update_apply _ _ _ _
@[simp] theorem mark_takeoff : (p.mark f).takeoff = p.takeoff := rfl
@[simp] theorem mark_carView : (p.mark f).carView = p.carView := rfl
@[simp] theorem mark_carSwap : (p.mark f).carSwap = p.carSwap := rfl

@[simp] theorem link_loc : p.link.loc = p.loc := rfl
@[simp] theorem link_flags : p.link.flags = p.flags := rfl
@[simp] theorem link_takeoff : p.link.takeoff = some .overWill := rfl
@[simp] theorem link_carView : p.link.carView = p.carView := rfl
@[simp] theorem link_carSwap : p.link.carSwap = p.carSwap := rfl

@[simp] theorem swapCar_loc : p.swapCar.loc = p.loc := rfl
@[simp] theorem swapCar_flags : p.swapCar.flags = p.flags := rfl
@[simp] theorem swapCar_takeoff : p.swapCar.takeoff = p.takeoff := rfl
@[simp] theorem swapCar_carView : p.swapCar.carView = p.carSwap := rfl
@[simp] theorem swapCar_carSwap : p.swapCar.carSwap = p.carView := rfl

end Fields

end Plot

/-! ## Turns and walks -/

/-- **`Turn here p p'`** — what a command does to the plot while the player stands in `here`. -/
inductive Turn (here : RoomId) (p : Plot) : Plot → Prop
  | idle : Turn here p p
  | eat : Turn here p (p.mark .hasEaten)
  | take (o : ObjId) : p.loc o = some here → (o = .tux → p.flags .luredTux) →
      Turn here p (p.move o (some .inventory))
  | put (o : ObjId) : p.loc o = some .inventory → Turn here p (p.move o (some here))
  | borrowC : p.flags .hasEaten → Turn here p (p.move .bookC (some .inventory))
  | borrowWode : Turn here p (p.move .bookWode (some .inventory))
  | dew (l : Option RoomId) : Turn here p (p.move .mtnDew l)
  | wear : p.Has .bunnysuit → Turn here p ((p.move .bunnysuit none).mark .wearingSuit)
  | fix : here = .inCleanr → p.Has .gpsBad → p.Has .gpsSpec →
      Turn here p (((p.move .gpsBad none).move .gpsSpec none).move .gpsGood (some .inventory))
  | flash : p.Has .robotDead →
      Turn here p ((p.move .robotDead none).move .robotLive (some .inventory))
  | openCar : here = .carSite → ¬ p.flags .carFixed → ¬ p.flags .carOpen → p.Has .carKey →
      Turn here p (((p.swapCar.move .carKey none).move .battCar (some here)).mark .carOpen)
  | pull : p.Has .battCar → Turn here p ((p.move .battCar none).move .battEmpty (some .inventory))
  | charge : p.Has .battEmpty →
      Turn here p ((p.move .battEmpty none).move .battFull (some .inventory))
  | fixCar : p.Has .battFull → Turn here p (((p.move .battFull none).mark .carFixed).swapCar)
  | link : here = .cockpit → p.loc .mimoCard = some .inventory ∨ p.loc .mimoCard = some here →
      Turn here p ((p.move .mimoCard none).link)
  | lure : here = .remLab → p.Has .fish →
      Turn here p (((p.move .fish none).move .tux (some .inventory)).mark .luredTux)

/-- `room_data` has an exit from one room to another. -/
def IsExit (here dest : RoomId) : Prop :=
  ∃ d ∈ roomData, d.id = here ∧ (d.left = some dest ∨ d.enter = some dest ∨ d.right = some dest)

/-- **`Walk p here dest`** — the ways out of a room. -/
inductive Walk (p : Plot) (here : RoomId) : RoomId → Prop
  | exit {dest : RoomId} : IsExit here dest → Walk p here dest
  | takeoff {dest : RoomId} : p.takeoff = some dest → here = .cockpit → Walk p here dest
  | cleanroom : p.flags .wearingSuit → Walk p here .inCleanr
  | lab395 : Walk p here .in395lab
  | csl : Walk p here .cslLobby
  | beckman : Walk p here .becklobby
  | allerton : p.flags .carFixed → p.Has .gpsGood → Walk p here .allerton
  | willard : p.flags .carFixed → Walk p here .willard
  | campus : Walk p here .carSite

/-- **`Advance (here, p) (here', p')`** — one action, seen in the story. -/
inductive Advance : RoomId × Plot → RoomId × Plot → Prop
  | turn {here : RoomId} {p p' : Plot} : Turn here p p' → Advance (here, p) (here, p')
  | walk {here dest : RoomId} {p : Plot} : Walk p here dest → Advance (here, p) (dest, p)

/-! ## Nothing is reached before what it takes -/

/-- The parts of the map behind a gate. -/
inductive Zone
  | campus | cleanroom | allerton | willard | aloft
  deriving DecidableEq

def zone : RoomId → Zone
  | .inCleanr => .cleanroom
  | .allerton | .fuDogs | .statue | .sunsinger => .allerton
  | .willard | .willSide | .remPlane | .cockpit => .willard
  | .overWill | .airRio | .remIce | .remLab => .aloft
  | _ => .campus

/-- What it takes to be in a part of the map. -/
def Access (p : Plot) : Zone → Prop
  | .campus => True
  | .cleanroom => p.flags .wearingSuit
  | .allerton => p.flags .wearingSuit ∧ p.flags .carFixed
  | .willard => p.flags .carFixed
  | .aloft => p.flags .carFixed ∧ p.takeoff ≠ none

/-- The exits of `room_data` never pass a gate inwards. -/
theorem zone_of_exit {here dest : RoomId} (h : IsExit here dest) :
    zone dest = .campus ∨ zone dest = zone here ∨ zone here = .aloft ∧ zone dest = .willard := by
  have hall : ∀ d ∈ roomData, ∀ dest ∈ d.left.toList ++ d.enter.toList ++ d.right.toList,
      zone dest = .campus ∨ zone dest = zone d.id ∨ zone d.id = .aloft ∧ zone dest = .willard := by
    decide
  obtain ⟨d, hd, rfl, hdest⟩ := h
  apply hall d hd dest
  simp only [List.mem_append, Option.mem_toList]
  tauto

/-- What it takes for an object to be at a place. -/
def Fair (p : Plot) (l : Option RoomId) : ObjId → Prop
  | .bookC => l ≠ none → p.flags .hasEaten
  | .battCar | .battEmpty | .battFull => l ≠ none → p.flags .carOpen
  | .gpsGood => l ≠ none → p.flags .wearingSuit
  | .mimoCard => l ≠ some .statue → p.flags .wearingSuit ∧ p.flags .carFixed
  | .tux => l ≠ some .remLab → p.flags .luredTux
  | _ => True

/-- **`Earned here p`** — whatever is reached, what it takes is reached too. -/
structure Earned (here : RoomId) (p : Plot) : Prop where
  access : Access p (zone here)
  fair : ∀ o, Fair p (p.loc o) o
  fixed : p.flags .carFixed → p.flags .carOpen
  takeoff : p.takeoff ≠ none →
    p.takeoff = some .overWill ∧ p.flags .wearingSuit ∧ p.flags .carFixed
  lured : p.flags .luredTux → p.takeoff ≠ none

/-! What is accomplished stays so. -/

theorem Access.mono {p p' : Plot} {z : Zone} (h : Access p z) (hflags : ∀ f, p.flags f → p'.flags f)
    (htakeoff : p.takeoff ≠ none → p'.takeoff ≠ none) : Access p' z := by
  cases z with
  | campus => trivial
  | cleanroom => exact hflags _ h
  | allerton => exact ⟨hflags _ h.1, hflags _ h.2⟩
  | willard => exact hflags _ h
  | aloft => exact ⟨hflags _ h.1, htakeoff h.2⟩

theorem Fair.mono {p p' : Plot} {l : Option RoomId} {o : ObjId} (h : Fair p l o)
    (hflags : ∀ f, p.flags f → p'.flags f) : Fair p' l o := by
  cases o with
  | bookC => exact fun hl => hflags _ (h hl)
  | battCar => exact fun hl => hflags _ (h hl)
  | battEmpty => exact fun hl => hflags _ (h hl)
  | battFull => exact fun hl => hflags _ (h hl)
  | gpsGood => exact fun hl => hflags _ (h hl)
  | mimoCard => exact fun hl => ⟨hflags _ (h hl).1, hflags _ (h hl).2⟩
  | tux => exact fun hl => hflags _ (h hl)
  | _ => trivial

/-- Away from where it starts, an object may be anywhere. -/
theorem Fair.elsewhere {p : Plot} {l : Option RoomId} {o : ObjId} (h : Fair p l o) (hnone : l ≠ none)
    (hmimo : o = .mimoCard → l ≠ some .statue) (htux : o = .tux → l ≠ some .remLab)
    (l' : Option RoomId) : Fair p l' o := by
  cases o with
  | bookC => exact fun _ => h hnone
  | battCar => exact fun _ => h hnone
  | battEmpty => exact fun _ => h hnone
  | battFull => exact fun _ => h hnone
  | gpsGood => exact fun _ => h hnone
  | mimoCard => exact fun _ => h (hmimo rfl)
  | tux => exact fun _ => h (htux rfl)
  | _ => trivial

namespace Earned

variable {here : RoomId} {p p' : Plot}

/-- An object moves to where it may be. -/
theorem move (h : Earned here p) (o : ObjId) (l : Option RoomId) (hl : Fair p l o) :
    Earned here (p.move o l) := by
  refine ⟨h.access.mono (fun _ => id) id, fun o' => ?_, h.fixed, h.takeoff, h.lured⟩
  rw [Plot.move_loc]
  split
  next ho => exact (ho ▸ hl).mono fun _ => id
  next => exact (h.fair o').mono fun _ => id

theorem mark (h : Earned here p) (f : Flag) (hfixed : f = .carFixed → p.flags .carOpen)
    (hlured : f = .luredTux → p.takeoff ≠ none) : Earned here (p.mark f) := by
  have hflags : ∀ f', p.flags f' → (p.mark f).flags f' := by
    intro f' hf'
    rw [Plot.mark_flags, hf', ite_self]
  refine ⟨h.access.mono hflags id, fun o => (h.fair o).mono hflags, fun hf => hflags _ ?_,
    fun ht => ?_, fun hf => ?_⟩
  · by_cases hm : f = .carFixed
    · exact hfixed hm
    · rw [Plot.mark_flags, if_neg (Ne.symm hm)] at hf
      exact h.fixed hf
  · obtain ⟨hdest, hsuit, hfix⟩ := h.takeoff ht
    exact ⟨hdest, hflags _ hsuit, hflags _ hfix⟩
  · by_cases hm : f = .luredTux
    · exact hlured hm
    · rw [Plot.mark_flags, if_neg (Ne.symm hm)] at hf
      exact h.lured hf

theorem swapCar (h : Earned here p) : Earned here p.swapCar :=
  ⟨h.access.mono (fun _ => id) id, fun o => (h.fair o).mono fun _ => id, h.fixed, h.takeoff, h.lured⟩

theorem link (h : Earned here p) (hsuit : p.flags .wearingSuit) (hfixed : p.flags .carFixed) :
    Earned here p.link :=
  ⟨h.access.mono (fun _ => id) nofun, fun o => (h.fair o).mono fun _ => id, h.fixed,
    fun _ => ⟨rfl, hsuit, hfixed⟩, nofun⟩

/-- **Every turn keeps to it.** -/
theorem turn (h : Earned here p) (ht : Turn here p p') : Earned here p' := by
  cases ht with
  | idle => exact h
  | eat => exact h.mark .hasEaten nofun nofun
  | take o ho hlured =>
      apply h.move
      by_cases hstatue : o = .mimoCard ∧ here = .statue
      · -- whoever stands before the statue came by car, and with a GPS
        obtain ⟨rfl, rfl⟩ := hstatue
        exact fun _ => h.access
      · by_cases htux : o = .tux
        · subst htux
          exact fun _ => hlured rfl
        · have hfair := h.fair o
          rw [ho] at hfair
          refine hfair.elsewhere nofun (fun hm hs => ?_) (fun ht => absurd ht htux) _
          exact hstatue ⟨hm, Option.some.inj hs⟩
  | put o ho =>
      apply h.move
      have hfair := h.fair o
      rw [ho] at hfair
      exact hfair.elsewhere nofun nofun nofun _
  | borrowC heaten => exact h.move .bookC _ fun _ => heaten
  | borrowWode => exact h.move .bookWode _ trivial
  | dew l => exact h.move .mtnDew l trivial
  | wear _ => exact (h.move .bunnysuit none trivial).mark .wearingSuit nofun nofun
  | fix hhere _ _ =>
      subst hhere
      have hsuit : p.flags .wearingSuit := h.access
      exact ((h.move .gpsBad none trivial).move .gpsSpec none trivial).move .gpsGood _ fun _ => hsuit
  | flash _ => exact (h.move .robotDead none trivial).move .robotLive _ trivial
  | openCar _ _ _ _ =>
      show Earned here (((p.mark .carOpen).swapCar.move .carKey none).move .battCar (some here))
      have hopen : (p.mark .carOpen).flags .carOpen := by simp
      apply ((h.mark .carOpen nofun nofun).swapCar.move .carKey none trivial).move
      exact fun _ => hopen
  | pull hcar =>
      have hopen : p.flags .carOpen := h.fair .battCar hcar
      exact (h.move .battCar none fun _ => hopen).move .battEmpty _ fun _ => hopen
  | charge hempty =>
      have hopen : p.flags .carOpen := h.fair .battEmpty hempty
      exact (h.move .battEmpty none fun _ => hopen).move .battFull _ fun _ => hopen
  | fixCar hfull =>
      have hopen : p.flags .carOpen := h.fair .battFull hfull
      apply swapCar
      exact (h.move .battFull none fun _ => hopen).mark .carFixed (fun _ => hopen) nofun
  | link hhere hmimo =>
      subst hhere
      have hne : p.loc .mimoCard ≠ some .statue := by
        rcases hmimo with hm | hm
        · rw [hm]
          exact nofun
        · rw [hm]
          exact nofun
      obtain ⟨hsuit, hfixed⟩ := h.fair .mimoCard hne
      exact (h.move .mimoCard none fun _ => ⟨hsuit, hfixed⟩).link hsuit hfixed
  | lure hhere _ =>
      subst hhere
      show Earned .remLab (((p.mark .luredTux).move .fish none).move .tux (some .inventory))
      have hlured : (p.mark .luredTux).flags .luredTux := by simp
      apply ((h.mark .luredTux nofun fun _ => h.access.2).move .fish none trivial).move
      exact fun _ => hlured

theorem walk {dest : RoomId} (h : Earned here p) (hw : Walk p here dest) : Earned dest p := by
  refine ⟨?_, h.fair, h.fixed, h.takeoff, h.lured⟩
  cases hw with
  | exit hexit =>
      rcases zone_of_exit hexit with hz | hz | ⟨hz, hz'⟩
      · rw [hz]
        trivial
      · rw [hz]
        exact h.access
      · have haccess := h.access
        rw [hz] at haccess
        rw [hz']
        exact haccess.1
  | takeoff hdest _ =>
      obtain ⟨hover, -, hfixed⟩ := h.takeoff (by rw [hdest]; exact nofun)
      obtain rfl := Option.some.inj (hdest.symm.trans hover)
      exact ⟨hfixed, by rw [hdest]; exact nofun⟩
  | cleanroom hsuit => exact hsuit
  | lab395 => trivial
  | csl => trivial
  | beckman => trivial
  | allerton hfixed hgps => exact ⟨h.fair .gpsGood hgps, hfixed⟩
  | willard hfixed => exact hfixed
  | campus => trivial

theorem advance {s s' : RoomId × Plot} (h : Earned s.1 s.2) (ha : Advance s s') : Earned s'.1 s'.2 := by
  cases ha with
  | turn ht => exact h.turn ht
  | walk hw => exact h.walk hw

/-- **Who has the C book, and Tux out of his lab, has done everything else.** -/
theorem finish (h : Earned here p) (hbook : p.Has .bookC) (htux : p.loc .tux ≠ some .remLab) :
    (∀ f, p.flags f) ∧ p.takeoff = some .overWill := by
  have hlured : p.flags .luredTux := h.fair .tux htux
  obtain ⟨hdest, hsuit, hfixed⟩ := h.takeoff (h.lured hlured)
  refine ⟨fun f => ?_, hdest⟩
  cases f with
  | hasEaten => exact h.fair .bookC hbook
  | wearingSuit => exact hsuit
  | carOpen => exact h.fixed hfixed
  | carFixed => exact hfixed
  | luredTux => exact hlured

end Earned

/-! ## What turns into something else is neither lost nor doubled -/

/-- **`Conserved p₀ p`** — which objects are somewhere, as far as the flags and links tell; `p₀` is the
plot at the start. -/
structure Conserved (p₀ p : Plot) : Prop where
  gps : p.Has .gpsGood ↔ ¬ p.Has .gpsBad
  spec : p.Has .gpsSpec ↔ p.Has .gpsBad
  robot : p.Has .robotLive ↔ ¬ p.Has .robotDead
  battery_car : p.Has .battCar → ¬ p.Has .battEmpty ∧ ¬ p.Has .battFull
  battery_empty : p.Has .battEmpty → ¬ p.Has .battFull
  battery : p.Has .battCar ∨ p.Has .battEmpty ∨ p.Has .battFull ↔
    p.flags .carOpen ∧ ¬ p.flags .carFixed
  carView : p.carView = if p.flags .carOpen ∧ ¬ p.flags .carFixed then p₀.carSwap else p₀.carView
  carSwap : p.carSwap = if p.flags .carOpen ∧ ¬ p.flags .carFixed then p₀.carView else p₀.carSwap
  key : p.Has .carKey ↔ ¬ p.flags .carOpen
  bunnysuit : p.Has .bunnysuit ↔ ¬ p.flags .wearingSuit
  fish : p.Has .fish ↔ ¬ p.flags .luredTux
  mimo : p.Has .mimoCard ↔ p.takeoff = none

namespace Conserved

variable {p₀ p p' : Plot} {here : RoomId}

/-- An object that is somewhere goes somewhere else. -/
theorem move_of_has (h : Conserved p₀ p) {o : ObjId} (ho : p.Has o) (r : RoomId) :
    Conserved p₀ (p.move o (some r)) := by
  have hhas : ∀ o', (p.move o (some r)).Has o' ↔ p.Has o' := by
    intro o'
    rw [Plot.Has, Plot.move_loc]
    split
    next heq =>
      subst heq
      exact iff_of_true nofun ho
    next => rfl
  constructor <;> simp only [hhas, Plot.move_flags, Plot.move_takeoff, Plot.move_carView,
    Plot.move_carSwap]
  exacts [h.gps, h.spec, h.robot, h.battery_car, h.battery_empty, h.battery, h.carView, h.carSwap,
    h.key, h.bunnysuit, h.fish, h.mimo]

/-- No battery is out while the car is closed. -/
theorem no_battery (h : Conserved p₀ p) (hopen : ¬ p.flags .carOpen) :
    ¬ p.Has .battCar ∧ ¬ p.Has .battEmpty ∧ ¬ p.Has .battFull := by
  have hnone : ¬ (p.Has .battCar ∨ p.Has .battEmpty ∨ p.Has .battFull) :=
    fun hb => hopen (h.battery.mp hb).1
  tauto

/-- **Every turn keeps to it.**  A turn names the few relations it is about; the others are untouched. -/
theorem turn (h : Conserved p₀ p) (ht : Turn here p p') : Conserved p₀ p' := by
  cases ht with
  | idle => exact h
  | eat => exact { h with gps := h.gps }
  | take o ho _ => exact h.move_of_has (by rw [Plot.Has, ho]; exact nofun) _
  | put o ho => exact h.move_of_has (by rw [Plot.Has, ho]; exact nofun) _
  | borrowC _ => exact { h with gps := h.gps }
  | borrowWode => exact { h with gps := h.gps }
  | dew l => exact { h with gps := h.gps }
  | wear _ => exact { h with bunnysuit := by simp [Plot.Has] }
  | fix _ _ _ => exact { h with gps := by simp [Plot.Has], spec := by simp [Plot.Has] }
  | flash _ => exact { h with robot := by simp [Plot.Has] }
  | openCar _ hfixed hopen _ =>
      obtain ⟨-, hempty, hfull⟩ := h.no_battery hopen
      have hview := h.carView
      have hswap := h.carSwap
      rw [if_neg fun hc => hopen hc.1] at hview hswap
      exact
        { h with
          battery_car := fun _ => ⟨hempty, hfull⟩
          battery_empty := fun he => absurd he hempty
          battery := by simp [Plot.Has, hfixed]
          carView := by simp [hfixed, hswap]
          carSwap := by simp [hfixed, hview]
          key := by simp [Plot.Has] }
  | pull hcar =>
      obtain ⟨-, hfull⟩ := h.battery_car hcar
      have hflags := h.battery.mp (Or.inl hcar)
      exact
        { h with
          battery_car := fun hc => absurd rfl hc
          battery_empty := fun _ => hfull
          battery := iff_of_true (Or.inr (Or.inl nofun)) hflags }
  | charge hempty =>
      have hcar : ¬ p.Has .battCar := fun hc => (h.battery_car hc).1 hempty
      have hflags := h.battery.mp (Or.inr (Or.inl hempty))
      exact
        { h with
          battery_car := fun hc => absurd hc hcar
          battery_empty := fun he => absurd rfl he
          battery := iff_of_true (Or.inr (Or.inr nofun)) hflags }
  | fixCar hfull =>
      have hcar : ¬ p.Has .battCar := fun hc => (h.battery_car hc).2 hfull
      have hempty : ¬ p.Has .battEmpty := fun he => h.battery_empty he hfull
      have hflags := h.battery.mp (Or.inr (Or.inr hfull))
      have hview := h.carView
      have hswap := h.carSwap
      rw [if_pos hflags] at hview hswap
      have hfixed : ¬ (p.flags .carOpen ∧ ¬ (p.mark .carFixed).flags .carFixed) := by simp
      refine
        { h with
          battery_car := fun hc => absurd hc hcar
          battery_empty := fun he => absurd he hempty
          battery := iff_of_false ?_ hfixed
          carView := hswap.trans (if_neg hfixed).symm
          carSwap := hview.trans (if_neg hfixed).symm }
      rintro (hc | he | hf)
      · exact hcar hc
      · exact hempty he
      · exact hf rfl
  | link _ _ => exact { h with mimo := by simp [Plot.Has] }
  | lure _ _ => exact { h with fish := by simp [Plot.Has] }

theorem advance {s s' : RoomId × Plot} (h : Conserved p₀ s.2) (ha : Advance s s') :
    Conserved p₀ s'.2 := by
  cases ha with
  | turn ht => exact h.turn ht
  | walk _ => exact h

end Conserved

end Ece391.Adventure
