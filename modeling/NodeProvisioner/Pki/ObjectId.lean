import NodeProvisioner.Encoding.Der

/-!
# Object identifiers

An identifier is a path of numbers. The first two share one number of the encoding; each number is
written to the base 128, with a mark on all bytes but the last.
-/

namespace NodeProvisioner

/-- An object identifier in its encoding. -/
abbrev ObjectId := List UInt8

namespace ObjectId

/-- The bytes of a number to the base 128, all of them marked. -/
def markedBytes (n : Nat) : List UInt8 :=
  if n = 0 then [] else markedBytes (n / 128) ++ [UInt8.ofNat (128 + n % 128)]
termination_by n
decreasing_by omega

/-- The bytes of one number. -/
def arc (n : Nat) : List UInt8 := markedBytes (n / 128) ++ [UInt8.ofNat (n % 128)]

/-- The identifier of a path. -/
def ofPath : List Nat → ObjectId
  | first :: second :: rest => ((40 * first + second) :: rest).flatMap arc
  | path => path.flatMap arc

/-! ## Attributes of names -/

def commonName : ObjectId := ofPath [2, 5, 4, 3]

/-- The short names of attributes. -/
def attributeNames : List (ObjectId × String) :=
  [(commonName, "CN"), (ofPath [2, 5, 4, 4], "SN"), (ofPath [2, 5, 4, 5], "serialNumber"),
   (ofPath [2, 5, 4, 6], "C"), (ofPath [2, 5, 4, 7], "L"), (ofPath [2, 5, 4, 8], "ST"),
   (ofPath [2, 5, 4, 9], "STREET"), (ofPath [2, 5, 4, 10], "O"), (ofPath [2, 5, 4, 11], "OU"),
   (ofPath [2, 5, 4, 12], "title"), (ofPath [2, 5, 4, 42], "givenName"),
   (ofPath [1, 2, 840, 113549, 1, 9, 1], "emailAddress"),
   (ofPath [0, 9, 2342, 19200300, 100, 1, 25], "DC"),
   (ofPath [0, 9, 2342, 19200300, 100, 1, 1], "UID")]

/-! ## Extensions of certificates -/

def keyUsage : ObjectId := ofPath [2, 5, 29, 15]

def subjectAltName : ObjectId := ofPath [2, 5, 29, 17]

def basicConstraints : ObjectId := ofPath [2, 5, 29, 19]

def extendedKeyUsage : ObjectId := ofPath [2, 5, 29, 37]

def serverAuth : ObjectId := ofPath [1, 3, 6, 1, 5, 5, 7, 3, 1]

def clientAuth : ObjectId := ofPath [1, 3, 6, 1, 5, 5, 7, 3, 2]

/-! ## Keys and signatures -/

def ellipticKey : ObjectId := ofPath [1, 2, 840, 10045, 2, 1]

def curve256 : ObjectId := ofPath [1, 2, 840, 10045, 3, 1, 7]

def curve384 : ObjectId := ofPath [1, 3, 132, 0, 34]

def curve521 : ObjectId := ofPath [1, 3, 132, 0, 35]

def rsaKey : ObjectId := ofPath [1, 2, 840, 113549, 1, 1, 1]

def edwardsKey : ObjectId := ofPath [1, 3, 101, 112]

def ecdsaWithSha256 : ObjectId := ofPath [1, 2, 840, 10045, 4, 3, 2]

def ecdsaWithSha384 : ObjectId := ofPath [1, 2, 840, 10045, 4, 3, 3]

end ObjectId

end NodeProvisioner
