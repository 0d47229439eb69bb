/-
# Input streams

A stream hands out its chunks one read at a time. A read asks for one byte: it takes the next
chunk whole, uses its first byte and drops the others. An empty chunk is the end of the input for
that read alone; after the last chunk every read finds the end.
-/

namespace TapeMachine

structure Stream where
  chunks : List (List UInt8)
  deriving DecidableEq

namespace Stream

def empty : Stream := ⟨[]⟩

/-- A stream of single bytes. -/
def ofBytes (bytes : List UInt8) : Stream := ⟨bytes.map fun byte => [byte]⟩

/-- Read one byte. -/
def next (stream : Stream) : Option UInt8 × Stream :=
  match stream.chunks with
  | [] => (none, stream)
  | chunk :: chunks => (chunk.head?, ⟨chunks⟩)

end Stream

end TapeMachine
