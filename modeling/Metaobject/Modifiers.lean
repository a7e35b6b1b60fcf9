/-!
# Modifiers

Access and property flags shared by classes and their members. A set of flags is a record of
Booleans; `bits` and `ofBits` convert to and from the customary integer encoding, a word of 32 bits
with one bit per flag. Bits that belong to no flag are carried along.
-/

namespace Metaobject

/-- A set of access and property flags. -/
structure Modifiers where
  isPublic : Bool := false
  isPrivate : Bool := false
  isProtected : Bool := false
  isStatic : Bool := false
  isFinal : Bool := false
  isBridge : Bool := false
  isVarargs : Bool := false
  isInterface : Bool := false
  isAbstract : Bool := false
  isSynthetic : Bool := false
  isAnnotationType : Bool := false
  isEnum : Bool := false
  /-- The bits that belong to no flag, each in its place. -/
  spare : Nat := 0
deriving DecidableEq, Repr, Inhabited

namespace Modifiers

/-- The bits of the word that belong to no flag. -/
def spareMask : Nat := 0xffff8920

/-- The flags whose bit is set in `n`. -/
def ofBits (n : Nat) : Modifiers where
  isPublic := n.testBit 0
  isPrivate := n.testBit 1
  isProtected := n.testBit 2
  isStatic := n.testBit 3
  isFinal := n.testBit 4
  isBridge := n.testBit 6
  isVarargs := n.testBit 7
  isInterface := n.testBit 9
  isAbstract := n.testBit 10
  isSynthetic := n.testBit 12
  isAnnotationType := n.testBit 13
  isEnum := n.testBit 14
  spare := n &&& spareMask

/-- The integer with the bits of the flags that are set, and the spare bits. -/
def bits (m : Modifiers) : Nat :=
  m.isPublic.toNat + 2 * m.isPrivate.toNat + 4 * m.isProtected.toNat + 8 * m.isStatic.toNat
    + 16 * m.isFinal.toNat + 64 * m.isBridge.toNat + 128 * m.isVarargs.toNat + 512 *
      m.isInterface.toNat
    + 1024 * m.isAbstract.toNat + 4096 * m.isSynthetic.toNat + 8192 * m.isAnnotationType.toNat
    + 16384 * m.isEnum.toNat + m.spare

/-! ## Common combinations -/

def publicOnly : Modifiers where isPublic := true

def privateOnly : Modifiers where isPrivate := true

def publicStaticFinal : Modifiers where
  isPublic := true
  isStatic := true
  isFinal := true

def privateStaticFinal : Modifiers where
  isPrivate := true
  isStatic := true
  isFinal := true

end Modifiers

end Metaobject
