import NodeProvisioner.Text.Quoted

/-!
# Bootstrap tokens

A worker joins its cluster with a token: an identifier of six and a secret of sixteen characters,
both of lower-case letters and digits, with a point between them. The identifier is public.

Main statements: `parse_eq_some_iff` gives the grammar of tokens, `parse_toText` says that a token
reads back.
-/

namespace NodeProvisioner

/-- The characters of tokens. -/
def tokenAlphabet : List Char := "abcdefghijklmnopqrstuvwxyz0123456789".toList

/-- A part of a token: so many characters of the alphabet. -/
def IsTokenPart (size : Nat) (part : List Char) : Prop :=
  part.length = size ∧ ∀ c ∈ part, c ∈ tokenAlphabet

instance (size : Nat) (part : List Char) : Decidable (IsTokenPart size part) :=
  inferInstanceAs (Decidable (_ ∧ _))

/-- A token that a worker joins with. -/
structure BootstrapToken where
  id : List Char
  secret : List Char
  isId : IsTokenPart 6 id
  isSecret : IsTokenPart 16 secret
deriving DecidableEq

namespace BootstrapToken

/-! ## Text -/

/-- Reads a token. -/
def parse (s : String) : Option BootstrapToken :=
  let id := s.toList.takeWhile (· ≠ '.')
  match s.toList.dropWhile (· ≠ '.') with
  | [] => none
  | _ :: secret =>
    if h : IsTokenPart 6 id ∧ IsTokenPart 16 secret then some ⟨id, secret, h.1, h.2⟩ else none

/-- The identifier as a text. -/
def idText (t : BootstrapToken) : String := String.ofList t.id

/-- The secret as a text. -/
def secretText (t : BootstrapToken) : String := String.ofList t.secret

/-- The token as it is handed out. -/
def toText (t : BootstrapToken) : String := String.ofList (t.id ++ '.' :: t.secret)

/-- A part of a token has no point in it. -/
theorem ne_point_of_isTokenPart {size : Nat} {part : List Char} (h : IsTokenPart size part) :
    ∀ c ∈ part, c ≠ '.' := by
  intro c hc e
  have := h.2 c hc
  rw [e] at this
  revert this
  decide

/-- A token reads back. -/
theorem parse_toText (t : BootstrapToken) : parse t.toText = some t := by
  have hp : ∀ c ∈ t.id, decide (c ≠ '.') = true := by simpa using ne_point_of_isTokenPart t.isId
  simp only [parse, toText, String.toList_ofList, List.takeWhile_append_of_pos hp,
    List.dropWhile_append_of_pos hp]
  simp [t.isId, t.isSecret]

/-- What is left after the characters before the first point starts with the point. -/
theorem eq_point_of_dropWhile {cs secret : List Char} {p : Char}
    (h : cs.dropWhile (· ≠ '.') = p :: secret) : p = '.' := by
  have := List.head?_dropWhile_not (fun c => decide (c ≠ '.')) cs
  rw [h] at this
  simpa using this

/-- The texts that are tokens. -/
theorem parse_eq_some_iff {s : String} {t : BootstrapToken} : parse s = some t ↔ s = t.toText := by
  refine ⟨fun h => ?_, fun h => h ▸ parse_toText t⟩
  simp only [parse] at h
  split at h
  · simp at h
  · next p secret e =>
    split at h
    · obtain rfl := Option.some.inj h
      have whole := List.takeWhile_append_dropWhile (p := fun c => decide (c ≠ '.')) (l := s.toList)
      rw [e, eq_point_of_dropWhile e] at whole
      exact (String.ofList_toList (s := s)).symm.trans (congrArg String.ofList whole.symm)
    · simp at h

/-- The token as it may be shown to anyone. -/
def redacted (t : BootstrapToken) : String :=
  let id := Text.quoted t.idText
  let secret := Text.quoted "[REDACTED]"
  s!"BootstrapToken \x7b id: {id}, secret: {secret} \x7d"

/-- The name of the secret that the cluster keeps for the token. -/
def secretName (t : BootstrapToken) : String := "bootstrap-token-" ++ t.idText

/-! ## Generation -/

/-- A byte of a random source counts if it leaves all characters equally likely. -/
def accepts (b : UInt8) : Bool := b.toNat < 252

/-- The character that a random byte picks. -/
def pick (b : UInt8) : Char := tokenAlphabet.getD (b.toNat % 36) 'a'

/-- Draws characters from blocks of random bytes, as many blocks as it takes; the rest of the last
block is not used. `none` if the blocks do not suffice. -/
def draw : Nat → List (List UInt8) → Option (List Char × List (List UInt8))
  | 0, blocks => some ([], blocks)
  | _ + 1, [] => none
  | n + 1, block :: blocks =>
    let drawn := ((block.filter accepts).map pick).take (n + 1)
    (draw (n + 1 - drawn.length) blocks).map fun (more, rest) => (drawn ++ more, rest)

/-- A new token, drawn from blocks of random bytes: first the identifier, then, from a fresh block,
the secret. -/
def generate (blocks : List (List UInt8)) : Option (BootstrapToken × List (List UInt8)) := do
  let (id, rest) ← draw 6 blocks
  let (secret, rest) ← draw 16 rest
  if h : IsTokenPart 6 id ∧ IsTokenPart 16 secret then
    some (⟨id, secret, h.1, h.2⟩, rest)
  else none

end BootstrapToken

end NodeProvisioner
