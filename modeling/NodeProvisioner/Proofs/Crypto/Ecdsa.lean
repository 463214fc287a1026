import NodeProvisioner.Pki.Signature

/-!
# Keys and signatures that can always be made

Whether a key can be made, and whether a message can be signed with it, does not depend on what is
drawn. Of the number that is drawn nothing is known, but another can always take its place: one is a
private key, and one or two is of use for a signature. If both were of no use, the order would
divide what tells them apart, which is prime to it, or the private key, which is below it.

Main statement: `isSome_sign?`.
-/

namespace NodeProvisioner

namespace Ecdsa

variable {α : Type} {make? : Nat → Option α} {c : Curve} {n : Nat} {a : α} {secret : Nat}

/-! ## Numbers that are drawn -/

theorem isSome_greatest? (made : (make? n).isSome = true) (pos : 0 < n) {limit : Nat}
    (le : n ≤ limit) : (greatest? make? limit).isSome = true := by
  induction limit with
  | zero => omega
  | succ limit ih =>
    rw [greatest?]
    cases top : make? (limit + 1) with
    | some a => rfl
    | none =>
      refine ih (Nat.le_of_lt_succ (Nat.lt_of_le_of_ne le ?_))
      rintro rfl
      rw [top] at made
      cases made

theorem exists_of_greatest? {limit : Nat} (h : greatest? make? limit = some a) :
    ∃ n, make? n = some a := by
  induction limit with
  | zero => cases h
  | succ limit ih =>
    rw [greatest?] at h
    cases top : make? (limit + 1) with
    | some b =>
      rw [top] at h
      exact ⟨_, top.trans h⟩
    | none =>
      rw [top] at h
      exact ih h

/-- Something is made, whatever is drawn, if there is a number below the order that it can be made
of. -/
theorem isSome_drawn? (made : (make? n).isSome = true) (pos : 0 < n) (below : n < c.order)
    (random : List UInt8) : (drawn? c make? random).isSome = true := by
  rw [drawn?]
  cases make? (scalarOf c random) with
  | some a => rfl
  | none => exact isSome_greatest? made pos (Nat.le_sub_one_of_lt below)

theorem exists_of_drawn? {random : List UInt8} (h : drawn? c make? random = some a) :
    ∃ n, make? n = some a := by
  rw [drawn?] at h
  cases first : make? (scalarOf c random) with
  | some b =>
    rw [first] at h
    exact ⟨_, first.trans h⟩
  | none =>
    rw [first] at h
    exact exists_of_greatest? h

/-- A private key that is drawn has a public key. -/
theorem isSome_publicKey?_of_newSecret? {random : List UInt8}
    (h : newSecret? c random = some secret) : (publicKey? c secret).isSome = true := by
  obtain ⟨n, made⟩ := exists_of_drawn? h
  obtain ⟨p, shown, rfl⟩ := Option.map_eq_some_iff.mp made
  rw [shown]
  rfl

/-! ## Signatures -/

/-- What a signature shows of the number that it is made with. -/
def shown (c : Curve) (number : Nat) : Nat :=
  ((c.baseMultiple? number).map fun p => p.1 % c.order).getD 0

theorem shown_lt (pos : 0 < c.order) (number : Nat) : shown c number < c.order := by
  rw [shown]
  cases c.baseMultiple? number with
  | none => exact pos
  | some p => exact Nat.mod_lt _ pos

/-- One and two show something of themselves, what is divided by them loses nothing, and what they
show differs by a number that is prime to the order. -/
structure Signs (c : Curve) : Prop where
  large : 2 < c.order
  shows : ∀ k ∈ [1, 2], shown c k ≠ 0
  divides : ∀ k ∈ [1, 2], Nat.Coprime c.order (Curve.inverse c.order k)
  apart : Nat.Coprime c.order (shown c 1 + (c.order - shown c 2))

theorem signs_p256 : Signs .p256 where
  large := by decide +kernel
  shows := by decide +kernel
  divides := by decide +kernel
  apart := by decide +kernel

theorem signs_p384 : Signs .p384 where
  large := by decide +kernel
  shows := by decide +kernel
  divides := by decide +kernel
  apart := by decide +kernel

/-- Where one or two is of no use for a signature, the order divides what would be signed. -/
theorem dvd_of_signWith? (signs : Signs c) {number : Nat} (small : number ∈ [1, 2])
    {digest : List UInt8} (useless : signWith? c secret number digest = none) :
    c.order ∣ ofDigest c digest + shown c number * secret := by
  have shows := signs.shows number small
  cases multiple : c.baseMultiple? number with
  | none =>
    rw [shown, multiple] at shows
    exact absurd rfl shows
  | some p =>
    have shown_eq : shown c number = p.1 % c.order := by
      rw [shown, multiple]
      rfl
    rw [shown_eq] at shows ⊢
    rw [signWith?, multiple] at useless
    change (if _ ∨ _ then none else some _) = none at useless
    split at useless
    · rename_i either
      have zero := Nat.dvd_of_mod_eq_zero (either.resolve_left shows)
      have whole := (signs.divides number small).dvd_of_dvd_mul_left zero
      exact (Nat.dvd_mod_iff (Nat.dvd_refl _)).mp whole
    · cases useless

/-- One or two is of use for a signature with a private key. -/
theorem exists_signWith? (signs : Signs c) (pos : 0 < secret) (below : secret < c.order)
    (digest : List UInt8) : ∃ number ∈ [1, 2], (signWith? c secret number digest).isSome = true := by
  have second_mem : 2 ∈ [1, 2] := List.mem_cons_of_mem _ List.mem_cons_self
  cases first : signWith? c secret 1 digest with
  | some _ => exact ⟨1, List.mem_cons_self, by rw [first]; rfl⟩
  | none =>
    cases second : signWith? c secret 2 digest with
    | some _ => exact ⟨2, second_mem, by rw [second]; rfl⟩
    | none =>
      have one := dvd_of_signWith? signs List.mem_cons_self first
      have two := dvd_of_signWith? signs second_mem second
      have less := Nat.le_of_lt (shown_lt (Nat.lt_trans pos below) 2)
      have sum : (shown c 1 + (c.order - shown c 2)) * secret
          + (ofDigest c digest + shown c 2 * secret)
          = ofDigest c digest + shown c 1 * secret + c.order * secret := by
        have order : (c.order - shown c 2) * secret + shown c 2 * secret = c.order * secret := by
          rw [← Nat.add_mul, Nat.sub_add_cancel less]
        rw [Nat.add_mul]
        omega
      have apart : c.order ∣ (shown c 1 + (c.order - shown c 2)) * secret := by
        refine (Nat.dvd_add_left two).mp ?_
        rw [sum]
        exact Nat.dvd_add one (Nat.dvd_mul_right _ _)
      have key := Nat.le_of_dvd pos (signs.apart.dvd_of_dvd_mul_left apart)
      exact absurd key (Nat.not_le.mpr below)

/-- **A message can be signed with a private key, whatever is drawn.** -/
theorem isSome_sign? (signs : Signs c) (secret : Nat) (random digest : List UInt8) :
    (sign? c secret random digest).isSome = decide (0 < secret ∧ secret < c.order) := by
  rw [sign?]
  split
  · rename_i isKey
    rw [decide_eq_true isKey]
    obtain ⟨number, small, made⟩ := exists_signWith? signs isKey.1 isKey.2 digest
    have := signs.large
    have range : 0 < number ∧ number < c.order := by
      simp only [List.mem_cons, List.not_mem_nil, or_false] at small
      omega
    exact isSome_drawn? made range.1 range.2 random
  · rename_i noKey
    rw [decide_eq_false noKey]
    rfl

end Ecdsa

namespace Der

/-! ## What readers yield -/

variable {α : Type} {P : α → Prop}

/-- All that a reader yields has the property. -/
def Yields (r : Reader α) (P : α → Prop) : Prop :=
  ∀ bytes a rest, r.run bytes = some (a, rest) → P a

theorem yields_bind {β : Type} {r : Reader α} {f : α → Reader β} {Q : β → Prop}
    (h : ∀ a, Yields (f a) Q) : Yields (r >>= f) Q := by
  intro bytes b rest eq
  rw [StateT.run_bind] at eq
  obtain ⟨⟨a, more⟩, _, eq⟩ := Option.bind_eq_some_iff.mp eq
  exact h a _ _ _ eq

theorem yields_failure (P : α → Prop) : Yields (failure : Reader α) P := nofun

theorem yields_pure {a : α} (h : P a) : Yields (pure a : Reader α) P := by
  rintro _ _ _ ⟨⟩
  exact h

theorem yields_within {number : Nat} {inner : Reader α}
    (h : Yields inner P) : Yields (within number inner) P := by
  refine yields_bind fun content => ?_
  intro bytes b rest eq
  rw [StateT.run_bind] at eq
  obtain ⟨⟨⟨a, left⟩, more⟩, eq, eq'⟩ := Option.bind_eq_some_iff.mp eq
  obtain ⟨_, found, eq⟩ := Option.bind_eq_some_iff.mp eq
  cases eq
  cases eq'
  exact h _ _ _ found

end Der

namespace PrivateKey

open Der

/-! ## New keys -/

/-- A new key has a public key. -/
theorem exists_generate (random : List UInt8) :
    ∃ secret, generate random = .elliptic .p256 secret ∧
      (Ecdsa.publicKey? .p256 secret).isSome = true := by
  refine ⟨_, rfl, ?_⟩
  cases drawn : Ecdsa.newSecret? .p256 random with
  | none => decide +kernel
  | some secret => exact Ecdsa.isSome_publicKey?_of_newSecret? drawn

theorem isSome_publicInfo?_generate (random : List UInt8) :
    (generate random).publicInfo?.isSome = true := by
  obtain ⟨secret, eq, shown⟩ := exists_generate random
  rw [eq, publicInfo?, Option.isSome_map]
  exact shown

theorem isSome_encode?_generate (random : List UInt8) :
    (generate random).encode?.isSome = true := by
  obtain ⟨secret, eq, shown⟩ := exists_generate random
  rw [eq, encode?, Option.isSome_map]
  exact shown

/-! ## Keys that are read -/

/-- The number of a key of an elliptic curve is below the order, and not zero. -/
def IsWhole : PrivateKey → Prop
  | elliptic c secret => 0 < secret ∧ secret < c.order
  | _ => True

theorem yields_ellipticKey (known : Option Curve) : Yields (ellipticKey known) IsWhole := by
  refine yields_within (yields_bind fun version => yields_bind fun secret => yields_bind fun stated =>
    yields_bind fun shown => ?_)
  extract_lets curve
  cases curve with
  | none => exact yields_failure _
  | some c =>
    simp only
    split
    · exact yields_failure _
    · rename_i p eq
      split
      · refine yields_pure ?_
        rw [Ecdsa.publicKey?] at eq
        split at eq
        · assumption
        · cases eq
      · exact yields_failure _

theorem yields_primesKey : Yields primesKey IsWhole := by
  refine yields_within ?_
  iterate 9 refine yields_bind fun _ => ?_
  split
  · exact yields_pure trivial
  · exact yields_failure _

theorem yields_innerKey (kind : ObjectId) (parameters : Option Element) :
    Yields (innerKey kind parameters) IsWhole := by
  rw [innerKey]
  split
  · split
    · exact yields_ellipticKey _
    · exact yields_failure _
  · split
    · split
      · exact yields_primesKey
      · exact yields_failure _
    · split
      · refine yields_bind fun seed => ?_
        split
        · exact yields_pure trivial
        · exact yields_failure _
      · exact yields_failure _

theorem yields_anyKey : Yields anyKey IsWhole := by
  refine yields_within ?_
  refine yields_bind fun version => yields_bind fun (kind, parameters) => yields_bind fun inner => ?_
  split
  · rename_i key _ eq
    split
    · exact yields_pure (yields_innerKey _ _ _ _ _ eq)
    · exact yields_failure _
  · exact yields_failure _

/-- A key that is read is below the order. -/
theorem isWhole_of_ofDer? {bytes : List UInt8} {key : PrivateKey} (h : ofDer? bytes = some key) :
    key.IsWhole := by
  have whole {r : Reader PrivateKey} (yields : Yields r IsWhole)
      (eq : readAll? r bytes = some key) : key.IsWhole := by
    rw [readAll?] at eq
    split at eq
    · rename_i found
      cases eq
      exact yields _ _ _ found
    · cases eq
  have either {x y : Option PrivateKey} (eq : (x <|> y) = some key) :
      x = some key ∨ y = some key := by
    cases x with
    | none => exact .inr eq
    | some _ => exact .inl eq
  obtain found | found := either h
  · exact whole yields_anyKey found
  · obtain found | found := either found
    · exact whole (yields_ellipticKey none) found
    · exact whole yields_primesKey found

end PrivateKey

namespace SignatureSystem

/-! ## Signatures of messages -/

/-- Keys whose signatures have a kind are on curves on which signatures can be made. -/
theorem exists_of_kindOf? {key : PrivateKey} {kind : ObjectId} (h : kindOf? key = some kind) :
    ∃ c secret, key = .elliptic c secret ∧ Ecdsa.Signs c ∧
      ∀ message, ∃ digest, digest? kind message = some digest := by
  cases key with
  | elliptic c secret =>
    rw [kindOf?] at h
    split at h
    · rename_i curve
      cases h
      exact ⟨c, secret, rfl, curve ▸ Ecdsa.signs_p256, fun message => ⟨_, if_pos rfl⟩⟩
    · split at h
      · rename_i curve
        cases h
        refine ⟨c, secret, rfl, curve ▸ Ecdsa.signs_p384, fun message =>
          ⟨Digest.sha384.digest message, ?_⟩⟩
        exact (if_neg (by decide +kernel)).trans (if_pos rfl)
      · cases h
  | rsa | edwards => cases h

/-- **Whether a message can be signed is up to the key**, whatever is drawn. -/
theorem isSome_signMessage?_iff (key : PrivateKey) (random message : List UInt8) :
    (signMessage? key random message).isSome = true ↔
      (kindOf? key).isSome = true ∧ key.IsWhole := by
  rw [signMessage?]
  cases kind_eq : kindOf? key with
  | none => exact ⟨nofun, fun h => nomatch h.1⟩
  | some kind =>
    obtain ⟨c, secret, rfl, signs, digests⟩ := exists_of_kindOf? kind_eq
    obtain ⟨digest, digest_eq⟩ := digests message
    have signed : (Ecdsa.sign? c secret random digest).isSome = true ↔
        0 < secret ∧ secret < c.order := by
      rw [Ecdsa.isSome_sign? signs, decide_eq_true_iff]
    simp only [digest_eq, Option.bind_eq_bind, Option.bind_some]
    refine Iff.trans ?_ (signed.trans (and_iff_right rfl).symm)
    cases Ecdsa.sign? c secret random digest <;> exact Iff.rfl

end SignatureSystem

end NodeProvisioner
