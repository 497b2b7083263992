import JsxLowering.Proofs.Boundaries

/-!
# Runs of a session

A session is followed through any sequence of openings and closings, in any order and at any
offsets. What was opened since markup was last closed as outermost is read off the events alone; the
boundary is always the least of these offsets, and a closing gives text exactly if one of them is
smaller than its own.
-/

namespace JsxLowering.Session

/-! ## Histories -/

/-- The markup that a call closes. -/
inductive Closed
  | element (tag properties : String) (children : List Contribution)
  | fragment (children : List Contribution)

/-- The text of the markup. -/
def Closed.text : Closed → String
  | .element tag properties children => compose tag properties (childrenText children)
  | .fragment children => childrenText children

/-- Closes the markup. -/
def Closed.exit (s : Session) (start : Nat) : Closed → Except Failure Tree × Session
  | .element tag properties children => s.exitElement tag properties children start
  | .fragment children => s.exitFragment children start

/-- A call on a session. -/
inductive Call
  | enter (start : Nat)
  | exit (closed : Closed) (start : Nat)

/-- A call that was made, with the answer to a closing. -/
inductive Event
  | entered (start : Nat)
  | exited (closed : Closed) (start : Nat) (answer : Except Failure Tree)

namespace Event

/-- The offset at which markup was opened. -/
def entered? : Event → Option Nat
  | .entered start => some start
  | .exited .. => none

/-- Whether an answer is a text. -/
def isText : Except Failure Tree → Bool
  | .ok (.string _) => true
  | _ => false

/-- Whether markup was closed as outermost: the answer is no text. -/
def isOutermost : Event → Bool
  | .entered _ => false
  | .exited _ _ answer => !isText answer

/-- Whether markup was closed and a function was the answer. -/
def gaveFunction : Event → Bool
  | .exited _ _ (.ok tree) => tree.isAnonymousFunction
  | _ => false

end Event

/-- What happened in a session, newest first, and the session after it. -/
structure History where
  events : List Event := []
  session : Session := {}

namespace History

/-- The history with one more call. -/
def extend (h : History) : Call → History
  | .enter start => ⟨.entered start :: h.events, h.session.enter start⟩
  | .exit closed start =>
    let (answer, session) := closed.exit h.session start
    ⟨.exited closed start answer :: h.events, session⟩

/-- The history of a new session. -/
def ofCalls (calls : List Call) : History := calls.foldl extend {}

/-- The offsets at which markup was opened since markup was last closed as outermost. -/
def opened (h : History) : List Nat :=
  (h.events.takeWhile fun event => !event.isOutermost).filterMap Event.entered?

end History

/-! ## One call -/

theorem Closed.exit_eq (s : Session) (start : Nat) (closed : Closed) :
    closed.exit s start = s.exit closed.text start := by
  cases closed <;> rfl

/-- Markup is interior if the boundary is the least of some offsets and one of these is smaller. -/
theorem isInterior_iff {b : Boundary} {starts : List Nat} (h : b.low = starts.min?)
    (start : Nat) : b.isInterior start ↔ ∃ opened ∈ starts, opened < start := by
  unfold Boundary.isInterior
  rw [h]
  cases least : starts.min? with
  | none =>
    rw [List.min?_eq_none_iff] at least
    simp [least]
  | some low =>
    obtain ⟨mem, le⟩ := List.min?_eq_some_iff.mp least
    simp only [decide_eq_true_eq]
    constructor
    · intro smaller
      exact ⟨low, mem, smaller⟩
    · rintro ⟨opened, hm, smaller⟩
      exact Nat.lt_of_le_of_lt (le opened hm) smaller

/-- An opening adds its offset to those of which the boundary is the least. -/
theorem low_enter_eq_min? {s : Session} {starts : List Nat} (h : s.boundary.low = starts.min?)
    (start : Nat) : (s.enter start).boundary.low = (start :: starts).min? := by
  unfold Session.enter Boundary.enter
  rw [h, List.min?_cons]
  cases starts.min? with
  | none => rfl
  | some low => simp [Nat.min_comm]

/-- A closing of interior markup gives its text and changes nothing. -/
theorem exit_of_isInterior {s : Session} {start : Nat} (h : s.boundary.isInterior start)
    (text : String) : s.exit text start = (.ok (.string text), s) := by
  unfold Session.exit
  rw [if_pos h]

/-- A closing of other markup ends the boundary. It gives a function, which is counted, or a fault
of the template, which is not. -/
theorem exit_of_not_isInterior {s : Session} {start : Nat} (h : ¬ s.boundary.isInterior start)
    (text : String) :
    (∃ function, function.isAnonymousFunction
        ∧ s.exit text start = (.ok function, ⟨{}, s.compiled + 1⟩))
      ∨ ∃ fault : Fault, fault.code = "JSX-ERR-TEMPLATE-001"
        ∧ s.exit text start = (.error ⟨fault, start⟩, ⟨{}, s.compiled⟩) := by
  unfold Session.exit
  rw [if_neg h]
  cases compiled : Template.compile text with
  | ok function => exact .inl ⟨function, Template.isAnonymousFunction_of_compile compiled, rfl⟩
  | error fault => exact .inr ⟨fault, Template.code_of_compile compiled, rfl⟩

/-- A function is not taken for a text. -/
theorem isText_of_isAnonymousFunction {tree : Tree} (h : tree.isAnonymousFunction) :
    Event.isText (.ok tree) = false := by
  unfold Tree.isAnonymousFunction at h
  split at h
  · rfl
  · cases h

/-! ## Whole runs -/

namespace History

/-- What holds after every call: the boundary is the least offset that was opened since markup was
last closed as outermost, and every function that was given is counted. -/
structure IsTracked (h : History) : Prop where
  low : h.session.boundary.low = h.opened.min?
  compiled : h.session.compiled = h.events.countP Event.gaveFunction

theorem isTracked_empty : IsTracked {} := ⟨rfl, rfl⟩

/-- Entering markup keeps the least start among those that are open. -/
theorem IsTracked.enter {h : History} (tracked : h.IsTracked) (start : Nat) :
    (h.extend (.enter start)).IsTracked where
  low := low_enter_eq_min? tracked.low start
  compiled := tracked.compiled

/-- Closing markup resets the session exactly when the markup at the boundary is closed. -/
theorem IsTracked.exit {h : History} (tracked : h.IsTracked) (closed : Closed) (start : Nat) :
    (h.extend (.exit closed start)).IsTracked := by
  have after : h.extend (.exit closed start)
      = ⟨.exited closed start (h.session.exit closed.text start).1 :: h.events,
          (h.session.exit closed.text start).2⟩ := by
    rw [extend, closed.exit_eq]
  rw [after]
  -- a closing that gives a text keeps all opened offsets; any other one leaves none of them
  by_cases inside : h.session.boundary.isInterior start
  · rw [exit_of_isInterior inside]
    exact ⟨tracked.low, tracked.compiled⟩
  · rcases exit_of_not_isInterior inside closed.text with
      ⟨function, anonymous, answer⟩ | ⟨fault, -, answer⟩
    · rw [answer]
      refine ⟨?_, ?_⟩
      · simp [opened, Event.isOutermost, isText_of_isAnonymousFunction anonymous]
      · have counted : Event.gaveFunction (.exited closed start (.ok function)) := anonymous
        rw [List.countP_cons_of_pos counted, ← tracked.compiled]
    · rw [answer]
      exact ⟨rfl, tracked.compiled⟩

/-- One call keeps what holds of a history. -/
theorem IsTracked.extend {h : History} (tracked : h.IsTracked) (call : Call) :
    (h.extend call).IsTracked := by
  cases call with
  | enter start => exact tracked.enter start
  | exit closed start => exact tracked.exit closed start

/-- Tracking is kept over any further calls. -/
theorem IsTracked.foldl {h : History} (tracked : h.IsTracked) (calls : List Call) :
    (calls.foldl History.extend h).IsTracked := by
  -- by induction on the calls, with one step for entering and one for closing
  induction calls generalizing h with
  | nil => exact tracked
  | cons call rest ih => exact ih (tracked.extend call)

theorem isTracked_ofCalls (calls : List Call) : (ofCalls calls).IsTracked :=
  isTracked_empty.foldl calls

/-- After any calls on a new session, the boundary is the least offset that was opened since markup
was last closed as outermost, and the functions that were given are counted. Closing markup then
gives its text and changes nothing exactly if one of these offsets is smaller than its own. If none
is, the boundary is unset: a function is given and counted, or a fault of the template is given and
nothing is counted. -/
theorem ofCalls_tracks (calls : List Call) :
    (ofCalls calls).session.boundary.low = (ofCalls calls).opened.min?
      ∧ (ofCalls calls).session.compiled = (ofCalls calls).events.countP Event.gaveFunction
      ∧ ∀ (closed : Closed) (start : Nat),
          (closed.exit (ofCalls calls).session start
              = (.ok (.string closed.text), (ofCalls calls).session)
            ↔ ∃ opened ∈ (ofCalls calls).opened, opened < start)
          ∧ ((∃ opened ∈ (ofCalls calls).opened, opened < start)
            ∨ (∃ function, function.isAnonymousFunction
                ∧ closed.exit (ofCalls calls).session start
                  = (.ok function, ⟨⟨none⟩, (ofCalls calls).session.compiled + 1⟩))
            ∨ ∃ fault : Fault, fault.code = "JSX-ERR-TEMPLATE-001"
                ∧ closed.exit (ofCalls calls).session start
                  = (.error ⟨fault, start⟩, ⟨⟨none⟩, (ofCalls calls).session.compiled⟩)) := by
  have tracked := isTracked_ofCalls calls
  refine ⟨tracked.low, tracked.compiled, fun closed start => ?_⟩
  have inside := isInterior_iff tracked.low start
  rw [closed.exit_eq, ← inside]
  by_cases interior : (ofCalls calls).session.boundary.isInterior start
  · exact ⟨iff_of_true (exit_of_isInterior interior _) interior, .inl interior⟩
  · have answers := exit_of_not_isInterior interior closed.text
    refine ⟨iff_of_false (fun text => ?_) interior, .inr answers⟩
    rcases answers with ⟨function, anonymous, answer⟩ | ⟨fault, -, answer⟩
    · rw [answer] at text
      cases (Prod.mk.inj text).1
      cases anonymous
    · rw [answer] at text
      cases (Prod.mk.inj text).1

/-- An offset below the boundary is closed as outermost although nothing was opened there, and what
is opened after it starts a boundary of its own. -/
example : (ofCalls [.enter 10, .enter 14, .exit (.fragment []) 12]).session.boundary.low = some 10
    ∧ (ofCalls [.enter 10, .exit (.fragment []) 3, .enter 14]).session.boundary.low = some 14 := by
  decide +kernel

end History

end JsxLowering.Session
