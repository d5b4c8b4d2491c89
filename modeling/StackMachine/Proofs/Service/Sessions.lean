import StackMachine.Service.Sessions

/-! Looking up sessions after one was opened, changed or dropped: nothing but the session of that
id is affected. -/
namespace StackMachine.Service.Sessions

variable (s : Sessions) (id : Bytes)

theorem id_of_get? {s : Sessions} {id : Bytes} {session : Session} (h : s.get? id = some session) :
    session.id = id := by
  simpa using List.find?_some h

/-- A session that is opened is found under its id, unless there was one before. -/
theorem get?_insert (session : Session) :
    (s.insert session).get? id =
      (s.get? id).or (if session.id = id then some session else none) := by
  by_cases h : session.id = id <;> simp [get?, insert, List.find?_append, h]

theorem get?_modify {change : Session → Session} (hid : ∀ session, (change session).id = session.id)
    (other : Bytes) :
    (s.modify other change).get? id =
      if other = id then (s.get? id).map change else s.get? id := by
  have hsame : (fun session : Session => session.id == id) ∘
      (fun session => if session.id == other then change session else session) =
        fun session => session.id == id := by
    funext session
    by_cases h : session.id = other <;> simp [h, hid]
  rw [get?, modify, List.find?_map, hsame]
  change (s.get? id).map _ = _
  cases hs : s.get? id with
  | none => simp
  | some session =>
    have hfound := id_of_get? hs
    by_cases h : other = id
    · simp [hfound, h]
    · simp [hfound, h, Ne.symm h]

theorem get?_setState (other : Bytes) (state : State) :
    (s.setState other state).get? id =
      if other = id then
        (s.get? id).map fun session => { session with machine := { session.machine with state } }
      else s.get? id := by
  rw [setState]
  exact get?_modify s id (by intro session; rfl) other

theorem get?_erase (other : Bytes) :
    (s.erase other).get? id = if other = id then none else s.get? id := by
  by_cases h : other = id
  · simp [get?, erase, h]
  · rw [if_neg h, get?, erase, List.find?_filter]
    congr 1
    funext session
    by_cases hid : session.id = id <;> simp [hid, Ne.symm h]

end StackMachine.Service.Sessions
