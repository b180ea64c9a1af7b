/-!
# Access flags

The flags of classes, fields and methods are bits of a number. Which keyword a bit stands for
depends on what carries it, so each kind of item has its own table of keywords.
-/

set_option autoImplicit false

namespace DexListing

/-- The access flags that listings know. -/
inductive AccessFlag
  | isPublic
  | isPrivate
  | isProtected
  | isStatic
  | isFinal
  | isSynchronized
  | isVolatile
  | isTransient
  | isNative
  | isInterface
  | isAbstract
  | isStrict
  | isSynthetic
  | isAnnotationType
  | isEnum
  deriving DecidableEq, Repr

/-- The position of a flag's bit. -/
def AccessFlag.bit : AccessFlag → Nat
  | isPublic => 0
  | isPrivate => 1
  | isProtected => 2
  | isStatic => 3
  | isFinal => 4
  | isSynchronized => 5
  | isVolatile => 6
  | isTransient => 7
  | isNative => 8
  | isInterface => 9
  | isAbstract => 10
  | isStrict => 11
  | isSynthetic => 12
  | isAnnotationType => 13
  | isEnum => 14

/-- A set of access flags, bit by bit; unknown bits are allowed. -/
abbrev AccessFlags := Nat

/-- The set has the flag. -/
def AccessFlags.has (flags : AccessFlags) (flag : AccessFlag) : Bool :=
  flags.testBit flag.bit

/-- Flags with the keywords that they are listed as, in the order of listing. -/
abbrev KeywordTable := List (AccessFlag × String)

/-- The keywords of the flags that the set has, in the order of the table. -/
def AccessFlags.keywords (flags : AccessFlags) (table : KeywordTable) : List String :=
  (table.filter fun entry => flags.has entry.1).map Prod.snd

/-- The keywords of a class. -/
def classKeywords : KeywordTable :=
  [(.isPublic, "public"), (.isPrivate, "private"), (.isProtected, "protected"),
    (.isStatic, "static"), (.isFinal, "final"), (.isAbstract, "abstract")]

/-- The keywords of a field. -/
def fieldKeywords : KeywordTable :=
  [(.isPublic, "public"), (.isPrivate, "private"), (.isProtected, "protected"),
    (.isStatic, "static"), (.isFinal, "final"), (.isVolatile, "volatile"),
    (.isTransient, "transient")]

/-- The keywords of a method. -/
def methodKeywords : KeywordTable :=
  [(.isPublic, "public"), (.isPrivate, "private"), (.isProtected, "protected"),
    (.isStatic, "static"), (.isFinal, "final"), (.isSynchronized, "synchronized"),
    (.isNative, "native"), (.isAbstract, "abstract"), (.isStrict, "strictfp")]

end DexListing
