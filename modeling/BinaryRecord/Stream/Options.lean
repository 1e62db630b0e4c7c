import BinaryRecord.Text.Quoted

/-!
# Stream options
-/

set_option autoImplicit false

namespace BinaryRecord

structure StreamOptions where
  /-- How many values may wait between producer and consumer, one at least. -/
  capacity : Nat := 64
  /-- Whether the buffer must have exactly the size of the layout. -/
  strict : Bool := true
  threadName : String := "ironstruct-unpack"
  deriving DecidableEq, Repr

namespace StreamOptions

/-- The options with another capacity, which is raised to one. -/
def withCapacity (options : StreamOptions) (capacity : Nat) : StreamOptions :=
  { options with capacity := max capacity 1 }

def withStrict (options : StreamOptions) (strict : Bool) : StreamOptions :=
  { options with strict := strict }

def withThreadName (options : StreamOptions) (threadName : String) : StreamOptions :=
  { options with threadName := threadName }

def text (options : StreamOptions) : String :=
  s!"StreamBuilder \x7b capacity: {options.capacity}, strict: {options.strict}, " ++
    s!"thread_name: {Text.quote options.threadName} \x7d"

end StreamOptions

end BinaryRecord
