/-
# Ece391.Adventure.World — the rooms and objects of the adventure game (`mp2/world.c`).

Rooms and objects are the two enumerations of the source; a pointer into `room` or `object` is a value
of the enumeration, and NULL is `none`.  The contents of a room are a singly linked list threaded
through the objects, spliced by `remove_object` and `insert_object_at`.

A function that walks such a list or follows a pointer returns an `Option`: `none` if the walk never
ends or the pointer is NULL.  Whether that can happen is a theorem, not a convention.  The loops get
`nObjects` nodes of fuel; a walk that goes on after that many has come back to an object.

`rand` is a parameter: `rand i` is the value of the `i`-th call an action makes.  A command reports
what it showed in the status bar.
-/
import Mathlib.Algebra.Group.Int.Defs
import Mathlib.Algebra.Group.Nat.Defs
import Ece391.Lib.LinkedList

open Ece391.Lib

namespace Ece391.Adventure

/-! ## Rooms, objects, flags -/

/-- The rooms, `R_INVENTORY` first. -/
inductive RoomId
  | inventory | in391lab | by391lab | inIeee | byIeee | in395lab | by395lab | evtStair
  | inCleanr | byCleanr | evrtVend | almamater | inCocomr | byCocomr | byZas | eastEvrt
  | evrtBsmt | westBone | circleN | circleSw | eastBone | bardeen | libBack | reserve | talbotNw
  | talbotSw | talbot | springfld | caribou | kenney | dcl | libFront | kenneyE | newmark
  | mntlNw | mntlSw | mntllobby | mntlLab1 | mntlLab2 | mntlLab3 | cslView | cslDoor | cslLobby
  | cslUpper | csllounge | beckLot | beckman | beckDoor | becklobby | beckMri | garage | carSite
  | allerton | fuDogs | statue | sunsinger | willard | willSide | remPlane | cockpit | overWill
  | airRio | remIce | remLab
  deriving DecidableEq, Repr

/-- The objects. -/
inductive ObjId
  | board | jetpack | tux | mp2 | bookC | bookWode | gpsBad | gpsGood | gpsSpec | bunnysuit
  | battEmpty | battFull | battCar | mtnDew | fish | icard | carKey | robotDead | robotLive
  | mimoCard
  deriving DecidableEq, Repr

/-- `N_OBJECTS`. -/
def nObjects : Nat := 20

/-- The accomplishment flags. -/
inductive Flag
  | hasEaten | wearingSuit | carOpen | carFixed | luredTux
  deriving DecidableEq, Repr

/-- The rooms with a second photo. -/
inductive SwapId
  | circle | car
  deriving DecidableEq, Repr

/-! ## The data (`room_data`, `obj_data`, `swap_data`) -/

structure RoomData where
  id : RoomId
  name : String
  filename : String
  left : Option RoomId
  enter : Option RoomId
  right : Option RoomId

def roomData : List RoomData :=
  [⟨.inventory, "Inventory", "images/backpack.photo",
      none, none, none⟩,
   ⟨.in391lab, "391 Lab", "images/391lab.photo",
      none, some .by391lab, none⟩,
   ⟨.by391lab, "Outside of 391", "images/outside391.photo",
      some .byZas, some .in391lab, some .byIeee⟩,
   ⟨.inIeee, "IEEE Office", "images/ieee.photo",
      none, some .byIeee, none⟩,
   ⟨.byIeee, "Outside IEEE", "images/byieee.photo",
      some .by391lab, some .inIeee, some .by395lab⟩,
   ⟨.in395lab, "395 Lab", "images/395lab.photo",
      none, some .by395lab, none⟩,
   ⟨.by395lab, "Outside of 395", "images/outside395.photo",
      some .byIeee, none, some .evtStair⟩,
   ⟨.evtStair, "Everitt Stairs", "images/evtstair.photo",
      some .by395lab, some .eastEvrt, some .byCleanr⟩,
   ⟨.inCleanr, "In Cleanroom", "images/cleanr.photo",
      none, some .byCleanr, none⟩,
   ⟨.byCleanr, "By the Cleanroom", "images/outclean.photo",
      some .evtStair, none, some .evrtVend⟩,
   ⟨.evrtVend, "Vending Machine", "images/vend.photo",
      some .byCleanr, some .evrtBsmt, none⟩,
   ⟨.almamater, "Alma Mater", "images/almamater.photo",
      some .eastEvrt, some .eastEvrt, some .byCocomr⟩,
   ⟨.inCocomr, "Cocomero", "images/incoco.photo",
      none, some .byCocomr, none⟩,
   ⟨.byCocomr, "Near Cocomero", "images/bycoco.photo",
      some .almamater, some .inCocomr, some .byZas⟩,
   ⟨.byZas, "The Ruins", "images/ruins.photo",
      some .byCocomr, none, none⟩,
   ⟨.eastEvrt, "East of Everitt", "images/eeast.photo",
      some .almamater, some .evtStair, some .evrtBsmt⟩,
   ⟨.evrtBsmt, "Basement Entry", "images/basement.photo",
      some .eastEvrt, some .evrtVend, some .circleSw⟩,
   ⟨.westBone, "Boneyard Creek", "images/bonew.photo",
      some .circleSw, none, some .circleN⟩,
   ⟨.circleN, "Boneyard Bridge", "images/circlen1.photo",
      some .westBone, some .talbotNw, some .eastBone⟩,
   ⟨.circleSw, "Boneyard Bridge", "images/circlesw.photo",
      some .eastBone, some .evrtBsmt, some .circleN⟩,
   ⟨.eastBone, "Boneyard Creek", "images/bonee.photo",
      some .circleN, none, some .circleSw⟩,
   ⟨.bardeen, "Bardeen Quad", "images/bardeen.photo",
      some .libBack, some .eastBone, some .talbotSw⟩,
   ⟨.libBack, "Grainger Library", "images/graingerback.photo",
      some .dcl, some .reserve, some .bardeen⟩,
   ⟨.reserve, "Grainger Reserves", "images/reserve.photo",
      none, some .libBack, some .libFront⟩,
   ⟨.talbotNw, "Talbot Lab", "images/talbotnw.photo",
      some .circleSw, some .talbot, some .talbotSw⟩,
   ⟨.talbotSw, "Talbot Lab", "images/talbotsw.photo",
      some .talbotNw, some .talbot, some .springfld⟩,
   ⟨.talbot, "Talbot Lab", "images/talbot.photo",
      none, some .talbotNw, none⟩,
   ⟨.springfld, "Springfield Avenue", "images/springfield.photo",
      some .talbotSw, some .caribou, some .kenney⟩,
   ⟨.caribou, "Caribou", "images/caribou.photo",
      none, some .springfld, none⟩,
   ⟨.kenney, "Kenney Gym", "images/kenney.photo",
      some .springfld, none, some .dcl⟩,
   ⟨.dcl, "DCL", "images/dcl.photo",
      some .kenney, some .kenneyE, some .libFront⟩,
   ⟨.libFront, "Grainger Library", "images/graingerfront.photo",
      some .dcl, some .reserve, some .talbotSw⟩,
   ⟨.kenneyE, "East of Kenney", "images/kenneye.photo",
      some .dcl, some .dcl, some .newmark⟩,
   ⟨.newmark, "Newmark Lab", "images/newmark.photo",
      some .mntlNw, none, some .kenneyE⟩,
   ⟨.mntlNw, "MNTL", "images/mntlnw.photo",
      some .newmark, some .mntllobby, some .cslView⟩,
   ⟨.mntlSw, "MNTL", "images/mntlsw.photo",
      some .mntlNw, some .mntllobby, some .beckman⟩,
   ⟨.mntllobby, "Lobby of MNTL", "images/mntllobby.photo",
      some .mntlLab1, some .mntlSw, some .mntlLab2⟩,
   ⟨.mntlLab1, "Kevin's Lab in MNTL", "images/mntllab1.photo",
      none, none, some .mntllobby⟩,
   ⟨.mntlLab2, "MNTL Laser Lab", "images/mntllab2.photo",
      some .mntllobby, some .mntlLab3, none⟩,
   ⟨.mntlLab3, "MNTL Laser Lab", "images/mntllab3.photo",
      none, some .mntlLab2, none⟩,
   ⟨.cslView, "CSL", "images/csl.photo",
      some .beckLot, some .cslDoor, some .mntlNw⟩,
   ⟨.cslDoor, "CSL Main Entrance", "images/csldoor.photo",
      some .beckLot, none, some .mntlNw⟩,
   ⟨.cslLobby, "CSL Lobby", "images/csllobby.photo",
      some .cslUpper, some .cslDoor, none⟩,
   ⟨.cslUpper, "Upper Floor of CSL", "images/cslupper.photo",
      none, some .csllounge, some .cslLobby⟩,
   ⟨.csllounge, "CSL Lounge", "images/csllounge.photo",
      none, some .cslUpper, none⟩,
   ⟨.beckLot, "Beckman Circle Lot", "images/becklot.photo",
      some .beckman, some .garage, some .cslView⟩,
   ⟨.beckman, "Beckman Institute", "images/beckman.photo",
      some .mntlSw, some .beckDoor, some .beckLot⟩,
   ⟨.beckDoor, "Beckman Institute", "images/beckdoor.photo",
      some .mntlSw, none, some .beckLot⟩,
   ⟨.becklobby, "Beckman Lobby", "images/becklobby.photo",
      none, some .beckMri, some .beckDoor⟩,
   ⟨.beckMri, "An MRI Lab", "images/beckmri.photo",
      none, some .becklobby, none⟩,
   ⟨.garage, "Campus Parking", "images/garage.photo",
      some .beckLot, some .carSite, none⟩,
   ⟨.carSite, "Use Someone's Car?", "images/carclosed.photo",
      none, some .garage, none⟩,
   ⟨.allerton, "Allerton Mansion", "images/allerton.photo",
      some .fuDogs, none, some .sunsinger⟩,
   ⟨.fuDogs, "Fu Dog Statues", "images/fudogs.photo",
      none, some .statue, some .allerton⟩,
   ⟨.statue, "A Tall Statue", "images/statue.photo",
      none, some .fuDogs, none⟩,
   ⟨.sunsinger, "The Sun Singer", "images/sunsinger.photo",
      some .allerton, none, none⟩,
   ⟨.willard, "Willard Airport", "images/willard.photo",
      none, some .willSide, none⟩,
   ⟨.willSide, "Willard Tower", "images/willardside.photo",
      some .remPlane, none, some .willard⟩,
   ⟨.remPlane, "Sensor-Laden Plane", "images/rsenseplane.photo",
      some .cockpit, none, some .willSide⟩,
   ⟨.cockpit, "Plane Cockpit", "images/cockpit.photo",
      none, none, some .remPlane⟩,
   ⟨.overWill, "Flying over Willard", "images/overwillard.photo",
      none, some .cockpit, some .airRio⟩,
   ⟨.airRio, "Rio de Janeiro", "images/riofromair.photo",
      some .overWill, none, some .remIce⟩,
   ⟨.remIce, "Ice Fields", "images/rsenseice.photo",
      some .airRio, some .remLab, none⟩,
   ⟨.remLab, "Remote Sensing Lab", "images/rsenselab.photo",
      none, some .remIce, none⟩]

/-- A starting position of -1 asks for a random one. -/
structure ObjData where
  id : ObjId
  name : String
  filename : String
  room : Option RoomId
  x : Int
  y : Int

def objData : List ObjData :=
  [⟨.board, "board", "images/board.obj", some .inIeee, -1, -1⟩,
   ⟨.jetpack, "jetpack", "images/jetpack.obj", some .talbot, -1, -1⟩,
   ⟨.tux, "tux", "images/tux.obj", some .remLab, 250, 100⟩,
   ⟨.mp2, "mp2", "images/mp2.obj", some .csllounge, -1, -1⟩,
   ⟨.bookC, "book", "images/book.obj", none, -1, -1⟩,
   ⟨.bookWode, "book", "images/book2.obj", none, -1, -1⟩,
   ⟨.gpsBad, "gps", "images/gpsbad.obj", some .talbot, -1, -1⟩,
   ⟨.gpsGood, "gps", "images/gpsgood.obj", none, -1, -1⟩,
   ⟨.gpsSpec, "spec", "images/gpsspec.obj", some .cslUpper, -1, -1⟩,
   ⟨.bunnysuit, "bunnysuit", "images/bunnysuit.obj", some .almamater, 230, 250⟩,
   ⟨.battEmpty, "battery", "images/battery.obj", none, -1, -1⟩,
   ⟨.battFull, "battery", "images/battery.obj", none, -1, -1⟩,
   ⟨.battCar, "battery", "images/batteryincar.obj", none, -1, -1⟩,
   ⟨.mtnDew, "dew", "images/dew.obj", none, -1, -1⟩,
   ⟨.fish, "fish", "images/fish.obj", some .eastBone, 80, 260⟩,
   ⟨.icard, "Icard", "images/icard.obj", some .bardeen, -1, -1⟩,
   ⟨.carKey, "key", "images/key.obj", some .caribou, -1, -1⟩,
   ⟨.robotDead, "robot", "images/robot.obj", some .mntlLab3, -1, -1⟩,
   ⟨.robotLive, "robot", "images/robot.obj", none, -1, -1⟩,
   ⟨.mimoCard, "mimo", "images/mimo.obj", some .statue, -1, -1⟩]

structure SwapData where
  id : SwapId
  filename : String

def swapData : List SwapData :=
  [⟨.circle, "images/circlen2.photo"⟩, ⟨.car, "images/caropen.photo"⟩]

/-! ## The world -/

/-- `photo_header_t`: sizes of 16 bits. -/
structure PhotoHeader where
  width : Nat
  height : Nat
  width_lt : width < 2 ^ 16
  height_lt : height < 2 ^ 16

/-- `photo_t`: a room photo.  The palette is not modelled. -/
structure Photo extends PhotoHeader where
  img : Nat → UInt8

/-- `image_t`: an object's image. -/
structure Image extends PhotoHeader where
  img : Nat → UInt8

/-- `room_t`. -/
structure Room where
  name : Option String
  view : Option Photo
  contents : Option ObjId
  left : Option RoomId
  enter : Option RoomId
  right : Option RoomId

/-- `object_t`. -/
structure Object where
  name : Option String
  next : Option ObjId
  loc : Option RoomId
  x : Nat
  y : Nat
  img : Option Image

/-- The file-scope variables of `world.c`. -/
structure World where
  room : RoomId → Room
  object : ObjId → Object
  flags : Flag → Bool
  swapPhoto : SwapId → Option Photo

/-- `strcasecmp (s, t) == 0`. -/
def strcasecmp (s t : String) : Bool := s.toList.map Char.toLower == t.toList.map Char.toLower

namespace World

/-- Everything cleared by `memset`. -/
def zero : World where
  room := fun _ => ⟨none, none, none, none, none, none⟩
  object := fun _ => ⟨none, none, none, 0, 0, none⟩
  flags := fun _ => false
  swapPhoto := fun _ => none

/-- Assign fields of a room. -/
def setRoom (w : World) (r : RoomId) (f : Room → Room) : World :=
  { w with room := Function.update w.room r (f (w.room r)) }

/-- Assign fields of an object. -/
def setObject (w : World) (o : ObjId) (f : Object → Object) : World :=
  { w with object := Function.update w.object o (f (w.object o)) }

/-- The three fields the lists are made of. -/
def contents (w : World) (r : RoomId) : Option ObjId := (w.room r).contents
def next (w : World) (o : ObjId) : Option ObjId := (w.object o).next
def loc (w : World) (o : ObjId) : Option RoomId := (w.object o).loc

/-- The object is in the inventory or in room `r`. -/
def AtHand (w : World) (o : ObjId) (r : RoomId) : Prop :=
  w.loc o = some .inventory ∨ w.loc o = some r

instance (w : World) (o : ObjId) (r : RoomId) : Decidable (w.AtHand o r) := by
  unfold AtHand; infer_instance

/-- `player_set_flag`. -/
def setFlag (w : World) (f : Flag) : World := { w with flags := Function.update w.flags f true }

/-- `do_photo_swap`. -/
def doPhotoSwap (w : World) (r : RoomId) (which : SwapId) : World :=
  { w.setRoom r fun b => { b with view := w.swapPhoto which } with
    swapPhoto := Function.update w.swapPhoto which (w.room r).view }

/-! ## The lists -/

/-- The loop over the objects of a room through `room_contents_iterate` and `obj_next`. -/
def contentsList (w : World) (r : RoomId) : Option (List ObjId) := walk w.next nObjects (w.contents r)

/-- **`findInRoom`** — `find_in_room`: the first object of a room with a given name. -/
def findInRoom (w : World) (r : RoomId) (arg : String) : Option (Option ObjId) :=
  findFrom w.next (fun o => (w.object o).name.any (strcasecmp arg)) nObjects (w.contents r)

/-- The store `*find = v` of `remove_object` through a cell of the list of room `r`. -/
def storeCell (w : World) (r : RoomId) (v : Option ObjId) : Option ObjId → World
  | none => w.setRoom r fun b => { b with contents := v }
  | some p => w.setObject p fun b => { b with next := v }

/-- **`removeObject`** — `remove_object`: unlink an object and mark its location as NULL. -/
def removeObject (w : World) (o : ObjId) : Option World :=
  match w.loc o with
  | none => some w
  | some r =>
      (findCell (w.contents r) w.next o nObjects none).map fun found =>
        let w := match found with
          | none => w
          | some cell => w.storeCell r (w.next o) cell
        w.setObject o fun b => { b with loc := none }

/-- **`insertObjectAt`** — `insert_object_at`; the coordinates are stored in 16 bits. -/
def insertObjectAt (w : World) (o : ObjId) (r : RoomId) (x y : Int) : Option World :=
  (w.removeObject o).map fun w =>
    let w := w.setObject o fun b => { b with x := (x % 2 ^ 16).toNat, y := (y % 2 ^ 16).toNat }
    let w := w.setObject o fun b => { b with loc := some r, next := w.contents r }
    w.setRoom r fun b => { b with contents := some o }

/-- **`insertObject`** — `insert_object`: a random position, in the lowest quarter of the photo if the
object fits there. -/
def insertObject (w : World) (o : ObjId) (r : RoomId) (rand : Nat → Nat) : Option World :=
  match (w.room r).view, (w.object o).img with
  | some view, some img =>
      let range : Int := view.width - img.width
      let xpos := if 0 ≥ range then 0 else rand 0 % range
      let space : Int := view.height
      let range := space / 4 - img.height
      let ypos :=
        if 0 ≥ range then
          let range := space - img.height
          if 0 ≥ range then 0 else rand 1 % range
        else rand 1 % range + 3 * space / 4
      w.insertObjectAt o r xpos ypos
  | _, _ => none

/-- The grid positions `move_object_to_inventory` tries, in order. -/
def inventoryGrid : List (Nat × Nat) :=
  [10, 60, 110, 160].flatMap fun y => [10, 110, 210].map fun x => (x, y)

/-- The innermost loop of `move_object_to_inventory`: an object of the inventory at a position. -/
def conflict (w : World) (x y : Nat) : Option (Option ObjId) :=
  findFrom w.next (fun o => x == (w.object o).x && y == (w.object o).y) nObjects
    (w.contents .inventory)

/-- The loops over the grid. -/
def placeInInventory (w : World) (o : ObjId) (rand : Nat → Nat) : List (Nat × Nat) → Option World
  | [] => w.insertObject o .inventory rand
  | (x, y) :: grid =>
      match w.conflict x y with
      | none => none
      | some none => w.insertObjectAt o .inventory x y
      | some (some _) => w.placeInInventory o rand grid

/-- **`moveObjectToInventory`** — `move_object_to_inventory`. -/
def moveObjectToInventory (w : World) (o : ObjId) (rand : Nat → Nat) : Option World :=
  w.placeInInventory o rand inventoryGrid

/-- The end of `obj_special_get`: the battery in the open car, whatever was asked for. -/
def carBattery (w : World) (r : RoomId) : Option (World × Option ObjId × List String) :=
  if r = .carSite ∧ w.loc .battCar = some r then
    (w.removeObject .battCar).map fun w => (w, some .battEmpty, [])
  else some (w, none, [])

/-- **`objSpecialGet`** — `obj_special_get`: the world, the object to be gotten and what was shown. -/
def objSpecialGet (w : World) (r : RoomId) (arg : String) :
    Option (World × Option ObjId × List String) :=
  if r = .reserve ∧ strcasecmp "book" arg then
    if w.flags .hasEaten then
      if w.loc .bookC = none then some (w, some .bookC, ["You check out the C book."])
      else w.carBattery r
    else if w.loc .bookWode = none then
      some (w, some .bookWode, ["Here's a nice Wodehouse collection."])
    else w.carBattery r
  else w.carBattery r

end World

/-! ## `build_world` -/

section Build

variable (readPhoto : String → Option Photo) (readObjImage : String → Option Image)
  (rand : ObjId → Nat → Nat)

/-- The loop over the room data; the error is what is printed, with the id as its number in the
enumeration.  The ids are of the enumeration, so the check for bad ones is void. -/
def buildRooms : List RoomData → World → Except String World
  | [], w => .ok w
  | d :: ds, w =>
      if (w.room d.id).name ≠ none then
        .error ("Duplicate index " ++ toString d.id.ctorIdx ++ " in room data.\n")
      else
        match readPhoto d.filename with
        | none => .error ("Can't read room photo " ++ d.filename ++ ".\n")
        | some view =>
            buildRooms ds (w.setRoom d.id fun _ =>
              ⟨some d.name, some view, none, d.left, d.enter, d.right⟩)

/-- The last lines of the loop over the object data. -/
def World.placeObject (w : World) (d : ObjData) : Option World :=
  match d.room with
  | none => some w
  | some r => if d.x ≠ -1 then w.insertObjectAt d.id r d.x d.y else w.insertObject d.id r (rand d.id)

/-- The loop over the object data. -/
def buildObjects : List ObjData → World → Option (Except String World)
  | [], w => some (.ok w)
  | d :: ds, w =>
      if (w.object d.id).name ≠ none then
        some (.error ("Duplicate index " ++ toString d.id.ctorIdx ++ " in object data.\n"))
      else
        match readObjImage d.filename with
        | none => some (.error ("Can't read object photo " ++ d.filename ++ ".\n"))
        | some img =>
            ((w.setObject d.id fun _ => ⟨some d.name, none, none, 0, 0, some img⟩).placeObject rand
              d).bind (buildObjects ds)

/-- The loop over the swap photos. -/
def buildSwaps : List SwapData → World → Except String World
  | [], w => .ok w
  | d :: ds, w =>
      if (w.swapPhoto d.id).isSome then .error ("Duplicate index " ++ toString d.id.ctorIdx ++ " in swap data.\n")
      else
        match readPhoto d.filename with
        | none => .error ("Can't read room photo " ++ d.filename ++ ".\n")
        | some view =>
            buildSwaps ds { w with swapPhoto := Function.update w.swapPhoto d.id (some view) }

/-- **`buildWorld`** — `build_world`: the world, or the message printed when it returns 0. -/
def buildWorld : Option (Except String World) :=
  match buildRooms readPhoto roomData .zero with
  | .error e => some (.error e)
  | .ok w =>
      match buildObjects readObjImage rand objData w with
      | none => none
      | some (.error e) => some (.error e)
      | some (.ok w) => some (buildSwaps readPhoto swapData w)

end Build

end Ece391.Adventure
