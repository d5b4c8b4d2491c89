import StackMachine.Machine

/-! Sessions: machines that clients keep between requests, in the order of their creation. -/
namespace StackMachine.Service

/-- A session. A stopped machine does no more work. -/
structure Session where
  id : Bytes
  name : Bytes
  machine : Machine
  stopped : Bool := false

/-- The sessions that live, oldest first. -/
structure Sessions where
  live : List Session := []

namespace Sessions

/-- The session of an id. -/
def get? (s : Sessions) (id : Bytes) : Option Session :=
  s.live.find? fun session => session.id == id

/-- Opens a session. -/
def insert (s : Sessions) (session : Session) : Sessions :=
  { live := s.live ++ [session] }

/-- Changes the session of an id. -/
def modify (s : Sessions) (id : Bytes) (change : Session → Session) : Sessions :=
  { live := s.live.map fun session => if session.id == id then change session else session }

/-- Puts a machine into a state. -/
def setState (s : Sessions) (id : Bytes) (state : State) : Sessions :=
  s.modify id fun session => { session with machine := { session.machine with state } }

/-- Stops the machine of a session, which lives on. -/
def stop (s : Sessions) (id : Bytes) : Sessions :=
  s.modify id fun session => { session with stopped := true }

/-- Drops the session of an id. -/
def erase (s : Sessions) (id : Bytes) : Sessions :=
  { live := s.live.filter fun session => session.id != id }

/-- The number of sessions. -/
def size (s : Sessions) : Nat :=
  s.live.length

end Sessions

end StackMachine.Service
