/-!
# Attempts in turn

Actions that are carried out one after the other on one state, those behind a failing one too.
-/

set_option autoImplicit false

namespace BinaryRecord.Attempt

variable {ε σ α : Type}

def answer : EStateM.Result ε σ α → Except ε α
  | .ok value _ => .ok value
  | .error error _ => .error error

def state : EStateM.Result ε σ α → σ
  | .ok _ state => state
  | .error _ state => state

/-- What each action answers, and the state behind the last of them. -/
def all : List (EStateM ε σ α) → σ → List (Except ε α) × σ
  | [], start => ([], start)
  | action :: later, start =>
      (answer (action start) :: (all later (state (action start))).1,
        (all later (state (action start))).2)

end BinaryRecord.Attempt
