import StructuralSchema.Fault

namespace StructuralSchema

structure Options where
  maxSize : Option UInt64 := none
  looselyTyped : Bool := false
  deriving DecidableEq

namespace Options

/-- Zero sets no limit. -/
def sizeLimit (options : Options) : Option Nat :=
  (options.maxSize.map UInt64.toNat).filter (0 < ·)

def merged (options : Options) (maxSize : Option UInt64) (looselyTyped : Bool) : Options :=
  ⟨maxSize.or options.maxSize, options.looselyTyped || looselyTyped⟩

end Options

/-- A size may reach its limit. -/
def checkSize (size : Nat) (limit : Option Nat) : Except Fault Unit :=
  match limit with
  | some limit => if 0 < limit ∧ limit < size then .error (.tooLarge size limit) else .ok ()
  | none => .ok ()

end StructuralSchema
