import ConfigRegistry.Store.Tables

/-!
# Rooms

A node knows the connections attached to it and which notifications each of them
wants. Both are local to the node and empty after a restart. Only registered
connections are in rooms, and a room is kept only while it has members.
-/

namespace ConfigRegistry

/-- A class of notifications. -/
inductive Room where
  | configChanging (m : ModuleId)
  | backendsChanging (m : ModuleId)
  | routingChanging
  deriving DecidableEq, Inhabited

/-- The name of a room. -/
def Room.text : Room → String
  | .configChanging m => "config:" ++ m.text
  | .backendsChanging m => "backends:" ++ m.text
  | .routingChanging => "routing"

/-- A connection as its node knows it: two sessions never share a serial number, while a
connection id may come back. -/
structure Session where
  serial : Nat
  conn : ConnectionId
  deriving DecidableEq, Inhabited, Repr

/-- The connections of a node and the rooms they are in. -/
structure RoomIndex where
  sessions : List Session
  rooms : List (Room × List ConnectionId)
  deriving Inhabited

namespace RoomIndex

/-- No connections. -/
def empty : RoomIndex := ⟨[], []⟩

/-- Registers a connection in place of one of the same id. -/
def register (s : Session) (x : RoomIndex) : RoomIndex :=
  { x with sessions := Table.put Session.conn s x.sessions }

/-- Whether a connection is registered. -/
def isConnected (c : ConnectionId) (x : RoomIndex) : Bool := x.sessions.any (·.conn = c)

def session? (c : ConnectionId) (x : RoomIndex) : Option Session :=
  Table.find? Session.conn c x.sessions

def idsIn (r : Room) (x : RoomIndex) : List ConnectionId :=
  ((Table.find? Prod.fst r x.rooms).map Prod.snd).getD []

/-- The rooms with the members of one of them replaced; an empty room is dropped. -/
def setIds (r : Room) (ids : List ConnectionId) (x : RoomIndex) : RoomIndex :=
  { x with rooms := if ids.isEmpty then Table.erase Prod.fst r x.rooms
                    else Table.put Prod.fst (r, ids) x.rooms }

/-- Removes a connection from the index and from all rooms: whether it was registered. -/
def unregister (c : ConnectionId) (x : RoomIndex) : Bool × RoomIndex :=
  let rooms := x.rooms.filterMap fun (r, ids) =>
    let left := ids.filter (· ≠ c)
    if left.isEmpty then none else some (r, left)
  (x.isConnected c, ⟨Table.erase Session.conn c x.sessions, rooms⟩)

def isMember (r : Room) (c : ConnectionId) (x : RoomIndex) : Bool := (x.idsIn r).contains c

/-- Adds a registered connection to a room: whether it is registered. -/
def join (r : Room) (c : ConnectionId) (x : RoomIndex) : Bool × RoomIndex :=
  if x.isConnected c then
    let ids := x.idsIn r
    (true, if ids.contains c then x else x.setIds r (ids ++ [c]))
  else (false, x)

/-- Removes a connection from a room: whether it was in it. -/
def leave (r : Room) (c : ConnectionId) (x : RoomIndex) : Bool × RoomIndex :=
  (x.isMember r c, x.setIds r ((x.idsIn r).filter (· ≠ c)))

def members (r : Room) (x : RoomIndex) : List Session := (x.idsIn r).filterMap x.session?

/-- How many connections are registered. -/
def connectionCount (x : RoomIndex) : Nat := x.sessions.length

/-- How many rooms have members. -/
def roomCount (x : RoomIndex) : Nat := x.rooms.length

end RoomIndex

end ConfigRegistry
