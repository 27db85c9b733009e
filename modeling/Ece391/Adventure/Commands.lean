/-
# Ece391.Adventure.Commands — the player's actions (`mp2/world.c`).

The three moves and the fourteen typed commands, each a function of the world, the room the player is
in, the argument and the values of `rand`.  The room pointer becomes NULL when the game is won.

The tests come in the order of the source, and every early return is kept: what a command does not
say is as much a part of the game as what it does.
-/
import Ece391.Adventure.World

namespace Ece391.Adventure

/-! ## Replies -/

/-- `tc_action_t`. -/
inductive TcAction
  | allowEdit | discardText | redrawRoom | changeRoom
  deriving DecidableEq, Repr

/-- What an action leaves: the world, the player's room, the value returned and the messages shown. -/
structure Reply where
  world : World
  room : Option RoomId
  action : TcAction
  status : List String

/-- A message, and nothing else happens. -/
def say (w : World) (r : RoomId) (action : TcAction) (message : String) : Option Reply :=
  some ⟨w, some r, action, [message]⟩

/-! ## Moves -/

/-- The player arrives in a room; the photo of the Boneyard Circle is chosen randomly. -/
def arrive (w : World) (r : RoomId) (rand : Nat → Nat) : Reply :=
  ⟨if r = .circleN ∧ rand 0 % 2 = 0 then w.doPhotoSwap r .circle else w, some r, .changeRoom, []⟩

/-- The end of `try_to_move_left` and `try_to_move_right`. -/
def noWay (w : World) (r : RoomId) : Option Reply :=
  say w r .allowEdit
    (if r = .inventory then "Push 'home' or type 'inventory'." else "You can't go that way.")

def tryToMoveLeft (w : World) (r : RoomId) (rand : Nat → Nat) : Option Reply :=
  match (w.room r).left with
  | some dest => some (arrive w dest rand)
  | none => noWay w r

def tryToMoveRight (w : World) (r : RoomId) (rand : Nat → Nat) : Option Reply :=
  match (w.room r).right with
  | some dest => some (arrive w dest rand)
  | none => noWay w r

/-- Kevin's advice. -/
def advice : List String :=
  ["Kevin says, \"Andres' board is FAST!\"",
   "Kevin asks, \"Got a jetpack?\"",
   "Kevin: \"You can flash hardware in 395.\"",
   "Kevin suggests, \"Always carry a fish.\"",
   "Kevin asks, \"Have you done your MP2?\"",
   "Kevin says, \"Cocomero sells yogurt.\"",
   "Kevin asks, \"Maybe you need a Dew?\"",
   "Kevin: \"A magnet can charge a battery.\""]

/-- A door that the Icard opens. -/
def swipe (w : World) (r dest : RoomId) : Option Reply :=
  if w.loc .icard = some .inventory then
    some ⟨w, some dest, .changeRoom, ["You swiped your Icard."]⟩
  else say w r .allowEdit "You need a valid Icard."

/-- **`tryToEnter`** — `try_to_enter`, with the doors that need something. -/
def tryToEnter (w : World) (r : RoomId) (rand : Nat → Nat) : Option Reply :=
  match (w.room r).enter with
  | some dest => some (arrive w dest rand)
  | none =>
      if r = .byCleanr then
        if w.flags .wearingSuit then some ⟨w, some .inCleanr, .changeRoom, []⟩
        else say w r .allowEdit "You're not wearing a bunnysuit!"
      else if r = .by395lab then swipe w r .in395lab
      else if r = .cslDoor then swipe w r .cslLobby
      else if r = .beckDoor then
        if w.loc .robotLive = some .inventory then
          some ⟨w, some .becklobby, .changeRoom, ["The robot hand picked the lock!"]⟩
        else if w.loc .robotDead = some .inventory then
          say w r .allowEdit "Flash the robot's code again."
        else say w r .allowEdit "Complex lock!  Find a nanotech robot."
      else if r = .mntlLab1 then say w r .allowEdit (advice.getD (rand 0 % 8) "")
      else if r = .cockpit then say w r .allowEdit "A MIMO transmitter card is missing!"
      else say w r .allowEdit "You can't go that way."

/-! ## Typed commands -/

def typedCmdBuy (w : World) (r : RoomId) (arg : String) (rand : Nat → Nat) : Option Reply :=
  if strcasecmp "dew" arg then
    if r ≠ .evrtVend then say w r .discardText "Great idea!  But ... where?"
    else if w.AtHand .mtnDew r then say w r .discardText "Slow down!  One at a time..."
    else do
      let message :=
        if w.loc .mtnDew ≠ none then "Last one get stolen?  Ok...here we go..." else "You buy a Dew."
      let w ← w.moveObjectToInventory .mtnDew rand
      some ⟨w, some r, .redrawRoom, [message]⟩
  else if strcasecmp "yogurt" arg then
    if r ≠ .inCocomr then say w r .discardText "Cocomero doesn't deliver here."
    else if w.flags .hasEaten then say w r .discardText "You're not hungry."
    else say (w.setFlag .hasEaten) r .discardText "So tasty and delicious!"
  else say w r .allowEdit "Sorry, purchasing options are limited."

def typedCmdCharge (w : World) (r : RoomId) (arg : String) (rand : Nat → Nat) : Option Reply :=
  if ¬ strcasecmp "battery" arg then say w r .allowEdit "Electronic devices aren't (always) toys!"
  else if ¬ w.AtHand .battEmpty r ∧ ¬ w.AtHand .battFull r then say w r .discardText "What battery?"
  else if r ≠ .beckMri then say w r .discardText "Find a bigger magnet."
  else if w.AtHand .battFull r then say w r .discardText "Don't overdo it."
  else do
    let w ← w.removeObject .battEmpty
    let w ← w.moveObjectToInventory .battFull rand
    some ⟨w, some r, .redrawRoom, ["Wow!  That's a strong magnet!"]⟩

/-- **`typedCmdDo`** — the only way to win: the room pointer becomes NULL. -/
def typedCmdDo (w : World) (r : RoomId) (arg : String) : Option Reply :=
  if r ≠ .in391lab then say w r .allowEdit "You can't 'do' anything here."
  else if ¬ strcasecmp "391" arg ∧ ¬ strcasecmp "mp2" arg then
    say w r .allowEdit "Doing the 391 MP2 is more important!"
  else if w.loc .bookC ≠ some .inventory then
    say w r .discardText "You'd better get a book from Grainger."
  else if w.loc .mp2 ≠ some .inventory then
    say w r .discardText "Web's down.  Bring your own MP2."
  else if w.loc .tux ≠ some .in391lab then
    say w r .discardText "You'd have better luck if Tux were here."
  else some ⟨w, none, .changeRoom, []⟩

def typedCmdDrink (w : World) (r : RoomId) (arg : String) : Option Reply :=
  if ¬ strcasecmp "dew" arg then say w r .allowEdit "That sounds less refreshing than Dew."
  else if ¬ w.AtHand .mtnDew r then say w r .discardText "Uh-oh.  Hadewcinations.  Buy one soon!"
  else do
    let w ← w.removeObject .mtnDew
    some ⟨w, some r, .redrawRoom, ["Ahhhhhhhhhhhhhhhh...........nother?"]⟩

/-- The room the player stands in: looking at the inventory, it is recorded in `enter`. -/
def World.standing (w : World) (r : RoomId) : Option RoomId :=
  if r = .inventory then (w.room .inventory).enter else some r

def typedCmdDrop (w : World) (r : RoomId) (arg : String) (rand : Nat → Nat) : Option Reply := do
  match ← w.findInRoom .inventory arg with
  | none => say w r .allowEdit "You have no such thing."
  | some obj =>
      let hint :=
        if (obj = .battFull ∧ r = .carSite) ∨ (obj = .mimoCard ∧ r = .remPlane) then
          ["You may want to install it instead."]
        else []
      let dest ← w.standing r
      let w ← w.insertObject obj dest rand
      some ⟨w, some r, .redrawRoom, hint⟩

def typedCmdFix (w : World) (r : RoomId) (arg : String) (rand : Nat → Nat) : Option Reply :=
  if ¬ strcasecmp "gps" arg then say w r .allowEdit "In the game, you're not as capable."
  else if w.AtHand .gpsGood r then say w r .discardText "It's working fine."
  else if ¬ w.AtHand .gpsBad r then say w r .discardText "Do you have a GPS?"
  else if r ≠ .inCleanr then say w r .discardText "You'd better go to the cleanroom."
  else if ¬ w.AtHand .gpsSpec r then say w r .discardText "Maybe you'd better get a spec?"
  else do
    let w ← w.removeObject .gpsBad
    let w ← w.removeObject .gpsSpec
    let w ← w.moveObjectToInventory .gpsGood rand
    some ⟨w, some r, .changeRoom, ["All done--wow, you're good!"]⟩

def typedCmdFlash (w : World) (r : RoomId) (arg : String) (rand : Nat → Nat) : Option Reply :=
  if ¬ strcasecmp "robot" arg then say w r .allowEdit "Don't waste your time."
  else if ¬ w.AtHand .robotDead r ∧ ¬ w.AtHand .robotLive r then
    say w r .discardText "Maybe get the robot first?"
  else if r ≠ .in395lab then say w r .discardText "With spit and a lemon?  Try the lab."
  else if w.AtHand .robotLive r then say w r .discardText "You flash the robot's ROM again."
  else do
    let w ← w.removeObject .robotDead
    let w ← w.moveObjectToInventory .robotLive rand
    some ⟨w, some r, .redrawRoom, ["You flash it with a lockpicking code."]⟩

/-- The search of `typed_cmd_get`: a special object, else one in the room. -/
def World.seek (w : World) (src : RoomId) (arg : String) :
    Option (World × Option ObjId × List String) :=
  (w.objSpecialGet src arg).bind fun (w, special, shown) =>
    match special with
    | some obj => some (w, some obj, shown)
    | none => (w.findInRoom src arg).map fun obj => (w, obj, shown)

def typedCmdGet (w : World) (r : RoomId) (arg : String) (rand : Nat → Nat) : Option Reply := do
  let src ← w.standing r
  match ← w.seek src arg with
  | (w, none, shown) => some ⟨w, some r, .allowEdit, shown ++ ["You see no such thing here."]⟩
  | (w, some obj, shown) =>
      if obj = .tux ∧ ¬ w.flags .luredTux then
        some ⟨w, some r, .discardText, shown ++ ["Tux must choose you!  Try using a fish."]⟩
      else do
        let w ← w.moveObjectToInventory obj rand
        some ⟨w, some r, .redrawRoom, shown⟩

/-- What the car says while it cannot be driven. -/
def noCar (w : World) : String :=
  if w.flags .carOpen then "The car isn't working." else "Do you want to use that car?"

def typedCmdGo (w : World) (r : RoomId) (arg : String) : Option Reply :=
  if strcasecmp "allerton" arg then
    if r = .allerton then say w r .discardText "Kazam!  You're at Allerton!"
    else if r ≠ .willard ∧ r ≠ .carSite then say w r .discardText "That's quite a hike."
    else if ¬ w.flags .carFixed then say w r .discardText (noCar w)
    else if w.loc .gpsGood ≠ some .inventory then
      say w r .discardText
        (if w.loc .gpsBad = some .inventory then "That's a long road with a broken GPS."
         else "You'll need a GPS to find that place.")
    else some ⟨w, some .allerton, .changeRoom, ["You drive to Allerton Park."]⟩
  else if strcasecmp "willard" arg ∨ strcasecmp "airport" arg then
    if r = .willard then say w r .discardText "Kazap!  You're at Willard!"
    else if r ≠ .allerton ∧ r ≠ .carSite then say w r .discardText "That's quite a hike."
    else if ¬ w.flags .carFixed then say w r .discardText (noCar w)
    else some ⟨w, some .willard, .changeRoom, ["You drive to Willard Airport."]⟩
  else if strcasecmp "campus" arg then
    if r = .carSite then say w r .discardText "Kazar!  You're on campus!"
    else if r ≠ .allerton ∧ r ≠ .willard then say w r .discardText "That's quite a hike."
    else some ⟨w, some .carSite, .changeRoom, ["You drive back to campus."]⟩
  else say w r .allowEdit "The game map lacks certain places."

def typedCmdInstall (w : World) (r : RoomId) (arg : String) : Option Reply :=
  if strcasecmp "battery" arg then
    if ¬ w.AtHand .battEmpty r ∧ ¬ w.AtHand .battFull r then say w r .discardText "What battery?"
    else if r ≠ .carSite then say w r .discardText "Do you see the car?"
    else if w.AtHand .battEmpty r then say w r .discardText "You want to install a dead battery?"
    else do
      let w ← w.removeObject .battFull
      let w := (w.setFlag .carFixed).doPhotoSwap r .car
      some ⟨w, some r, .changeRoom, ["Nice work!  Now you can use it!"]⟩
  else if strcasecmp "mimo" arg ∨ strcasecmp "card" arg ∨ strcasecmp "transmitter" arg then
    if ¬ w.AtHand .mimoCard r then say w r .discardText "Do you have one of those?"
    else if r ≠ .cockpit then say w r .discardText "Nothing here needs that."
    else do
      let w ← w.removeObject .mimoCard
      let w := w.setRoom .cockpit fun b => { b with enter := some .overWill }
      some ⟨w, some r, .redrawRoom, ["Ready for takeoff, captain!"]⟩
  else say w r .allowEdit "What are you playing at?"

/-- **`typedCmdInventory`** — to the inventory and back. -/
def typedCmdInventory (w : World) (r : RoomId) : Option Reply :=
  if r = .inventory then some ⟨w, (w.room r).enter, .changeRoom, []⟩
  else
    some ⟨w.setRoom .inventory fun b => { b with enter := some r }, some .inventory, .changeRoom, []⟩

def typedCmdSigh (w : World) (r : RoomId) : Option Reply :=
  if r ≠ .byZas then say w r .discardText "MP2 got you down?  Take a break!"
  else say (w.setFlag .hasEaten) r .discardText "So sad... you lose your appetite."

def typedCmdUse (w : World) (r : RoomId) (arg : String) (rand : Nat → Nat) : Option Reply :=
  if strcasecmp "car" arg then
    if r = .allerton then say w r .discardText "Go to campus or Willard Airport?"
    else if r = .willard then say w r .discardText "Go to Allerton or campus?"
    else if r ≠ .carSite then say w r .discardText "You have a car?"
    else if w.flags .carFixed then say w r .discardText "Go to Allerton or Willard Airport?"
    else if w.flags .carOpen then say w r .discardText "You'll have to charge the battery."
    else if w.loc .carKey ≠ some .inventory then say w r .discardText "Perhaps you can find a key?"
    else do
      let w ← (w.doPhotoSwap r .car).removeObject .carKey
      let w ← w.insertObjectAt .battCar r 265 122
      let w := w.setFlag .carOpen
      some ⟨w, some r, .changeRoom, ["The key works, but the battery's dead."]⟩
  else if strcasecmp "fish" arg then
    if ¬ w.AtHand .fish r then say w r .discardText "Using the invisible fish...no effect!"
    else if r ≠ .remLab then say w r .discardText "I don't think that's sanitary."
    else do
      let w ← w.removeObject .fish
      let w ← w.moveObjectToInventory .tux rand
      some ⟨w.setFlag .luredTux, some r, .redrawRoom, ["Tux likes you!"]⟩
  else say w r .allowEdit "You want to use what!?"

def typedCmdWear (w : World) (r : RoomId) (arg : String) : Option Reply :=
  if ¬ strcasecmp "bunnysuit" arg then say w r .allowEdit "Big Brother forbids fashion statements."
  else if ¬ w.AtHand .bunnysuit r then say w r .discardText "Do you have a bunnysuit?"
  else do
    let w ← w.removeObject .bunnysuit
    some ⟨w.setFlag .wearingSuit, some r, .redrawRoom, ["You look good in pink!"]⟩

/-! ## The game -/

/-- The verbs of the typed commands. -/
inductive Verb
  | buy | charge | do | drink | drop | fix | flash | get | go | install | inventory | sigh | use
  | wear
  deriving DecidableEq, Repr

/-- What the player can do. -/
inductive Action
  | moveLeft
  | enter
  | moveRight
  | typed (verb : Verb) (arg : String)
  deriving DecidableEq, Repr

/-- **`act`** — one action of a player in room `r`. -/
def act (w : World) (r : RoomId) (rand : Nat → Nat) : Action → Option Reply
  | .moveLeft => tryToMoveLeft w r rand
  | .enter => tryToEnter w r rand
  | .moveRight => tryToMoveRight w r rand
  | .typed .buy arg => typedCmdBuy w r arg rand
  | .typed .charge arg => typedCmdCharge w r arg rand
  | .typed .do arg => typedCmdDo w r arg
  | .typed .drink arg => typedCmdDrink w r arg
  | .typed .drop arg => typedCmdDrop w r arg rand
  | .typed .fix arg => typedCmdFix w r arg rand
  | .typed .flash arg => typedCmdFlash w r arg rand
  | .typed .get arg => typedCmdGet w r arg rand
  | .typed .go arg => typedCmdGo w r arg
  | .typed .install arg => typedCmdInstall w r arg
  | .typed .inventory _ => typedCmdInventory w r
  | .typed .sigh _ => typedCmdSigh w r
  | .typed .use arg => typedCmdUse w r arg rand
  | .typed .wear arg => typedCmdWear w r arg

/-- The world and the room of the player, NULL once the game is won. -/
structure Game where
  world : World
  room : Option RoomId

/-- The start of the game, `start_in_room`. -/
def startGame (w : World) : Game := ⟨w, some .eastEvrt⟩

/-- **`Plays g (a, rand) g'`** — an action of a player who is still in a room. -/
def Plays (g : Game) (a : Action × (Nat → Nat)) (g' : Game) : Prop :=
  ∃ r reply, g.room = some r ∧ act g.world r a.2 a.1 = some reply ∧ g' = ⟨reply.world, reply.room⟩

end Ece391.Adventure
