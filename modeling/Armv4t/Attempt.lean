/-! # Attempts — operations that can be refused

    An operation that can be refused gives its refusal beside the state that it left, as one
    that works in place does.  That a refusal leaves a state as it was is a theorem about the
    operation, then, and not part of its type.  A caller that goes no further where it is
    refused asks for the outcome alone. -/

namespace Armv4t

/-- What an operation on a state came to: the refusal, if it was refused, and the state that
    it left in either case. -/
structure Attempt (ε S : Type) where
  refusal : Option ε
  state : S

namespace Attempt

variable {ε S T : Type}

/-- It was carried out. -/
@[inline] def done (s : S) : Attempt ε S := ⟨none, s⟩

/-- It was refused, and left a state. -/
@[inline] def refused (e : ε) (s : S) : Attempt ε S := ⟨some e, s⟩

/-- The attempt on a part of a state, as one on the whole of it. -/
@[inline] def map (f : S → T) (a : Attempt ε S) : Attempt ε T := ⟨a.refusal, f a.state⟩

/-- The state after an operation that was carried out, or else the refusal. -/
@[inline] def outcome (a : Attempt ε S) : Except ε S :=
  match a.refusal with
  | none => .ok a.state
  | some e => .error e

/-- What a caller goes on with is the state that was left. -/
theorem state_eq_of_outcome {a : Attempt ε S} {s : S} (h : a.outcome = .ok s) : a.state = s := by
  rw [outcome] at h
  split at h
  · exact Except.ok.inj h
  · exact nomatch h

end Attempt

end Armv4t
