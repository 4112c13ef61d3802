import StructuralSchema.Fault
import StructuralSchema.Json.Reader

namespace StructuralSchema

inductive Instance where
  | text (source : String)
  | value (value : Json)

namespace Instance

/-- The size of the text in bytes; a value has the size of its text on one line. -/
def size : Instance → Nat
  | text source => source.utf8ByteSize
  | value v => v.compact.utf8ByteSize

def load : Instance → Except Fault Json
  | text source => (Json.ofText source).mapError .malformed
  | value v => .ok v

end Instance

def Json.members? : Json → Except Fault (Fields Json)
  | .object members => .ok members
  | other => .error (.notAnObject other.kind)

end StructuralSchema
