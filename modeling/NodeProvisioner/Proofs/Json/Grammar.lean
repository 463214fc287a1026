import Mathlib.Data.List.Chain
import NodeProvisioner.Proofs.Json.Numbers
import NodeProvisioner.Proofs.Json.Texts

/-!
# What a JSON text is

The texts of a value, told without a reader. A value has its tokens: the marks of its structure and
the scalars in it (`Json.tokens`). A token may be written in several ways: a character of a text as
itself or escaped (`SpellsText`), a number with its exponent after either letter
(`Numeral.Spells`). Between tokens there may be any space (`Weaves`). A text of a value is one that
weaves its tokens (`Json.HasText`).

The value of a text keeps its members as they are written, so a name may occur twice. A number is
one that the value can hold: a text with a number out of range is the text of no value. Neither is
one with half of a surrogate pair, since no character belongs to it.
-/

namespace NodeProvisioner.Json

/-! ## Tokens -/

/-- A token of a text. -/
inductive Token where
  | openList
  | closeList
  | openMap
  | closeMap
  | comma
  | colon
  | scalar (value : Scalar)

namespace Token

/-- The token is a bracket, a comma or a colon. -/
def isMark : Token → Bool
  | scalar _ => false
  | _ => true

/-- The lexeme that a reader makes of the token. -/
def kind : Token → Kind
  | openList => .openList
  | closeList => .closeList
  | openMap => .openMap
  | closeMap => .closeMap
  | comma => .comma
  | colon => .colon
  | scalar value => .scalar value none

end Token

mutual

/-- The tokens of a value. -/
def tokens : Json → List Token
  | null => [.scalar .null]
  | bool b => [.scalar (.bool b)]
  | int i => [.scalar (.int i)]
  | float x => [.scalar (.float x)]
  | str s => [.scalar (.text s)]
  | arr items => .openList :: ([Token.comma].intercalate (itemTokens items) ++ [.closeList])
  | obj members => .openMap :: ([Token.comma].intercalate (memberTokens members) ++ [.closeMap])

/-- The tokens of each item. -/
def itemTokens : List Json → List (List Token)
  | [] => []
  | j :: rest => j.tokens :: itemTokens rest

/-- The tokens of each member: its name, a colon and its value. -/
def memberTokens : List (String × Json) → List (List Token)
  | [] => []
  | (name, j) :: rest => (.scalar (.text name) :: .colon :: j.tokens) :: memberTokens rest

end

/-! ## How tokens are written -/

/-- The ways to write a token. A number counts as its value. -/
inductive Token.Spells : Token → List Char → Prop where
  | openList : Spells .openList ['[']
  | closeList : Spells .closeList [']']
  | openMap : Spells .openMap ['\x7b']
  | closeMap : Spells .closeMap ['\x7d']
  | comma : Spells .comma [',']
  | colon : Spells .colon [':']
  | null : Spells (.scalar .null) ['n', 'u', 'l', 'l']
  | true : Spells (.scalar (.bool true)) ['t', 'r', 'u', 'e']
  | false : Spells (.scalar (.bool false)) ['f', 'a', 'l', 's', 'e']
  | text {s : String} {cs : List Char} : SpellsText s.toList cs →
      Spells (.scalar (.text s)) ('"' :: (cs ++ ['"']))
  | number {n : Numeral} {value : Scalar} {cs : List Char} : n.Spells cs →
      n.value? = some value →
      Spells (.scalar value) ((if n.negative then ['-'] else []) ++ cs)

/-- The characters are ways to write the tokens in their order, with any space around them. -/
inductive Weaves : List Token → List Char → Prop where
  | nil : Weaves [] []
  | space {ts : List Token} {c : Char} {cs : List Char} : isSpace c = true → Weaves ts cs →
      Weaves ts (c :: cs)
  | token {t : Token} {ts : List Token} {spelling cs : List Char} : t.Spells spelling →
      Weaves ts cs → Weaves (t :: ts) (spelling ++ cs)

/-- The whole text is a text of the value. -/
def HasText (j : Json) (text : String) : Prop := Weaves j.tokens text.toList

/-! ## Tokens that stand apart

Two numbers without space between them would read as one. In the tokens of a value no scalar
follows on another.
-/

/-- There is a mark between any two scalars. -/
def Apart (ts : List Token) : Prop := ts.IsChain fun a b => (a.isMark || b.isMark) = true

theorem Apart.tail {t : Token} {ts : List Token} (h : Apart (t :: ts)) : Apart ts :=
  List.IsChain.tail h

theorem Apart.head {t u : Token} {ts : List Token} (h : Apart (t :: u :: ts))
    (scalar : t.isMark = false) : u.isMark = true := by
  have first := (List.isChain_cons_cons.mp h).1
  rwa [scalar, Bool.false_or] at first

theorem apart_cons {t : Token} {ts : List Token} (mark : t.isMark = true) (h : Apart ts) :
    Apart (t :: ts) := by
  refine List.isChain_cons.mpr ⟨?_, h⟩
  intro u _
  rw [mark, Bool.true_or]

/-- A mark keeps apart what stands before and after it. -/
theorem Apart.append {t : Token} {before after : List Token} (h : Apart before)
    (mark : t.isMark = true) (g : Apart after) : Apart (before ++ t :: after) := by
  refine List.isChain_append.mpr ⟨h, apart_cons mark g, ?_⟩
  intro u _ v first
  rw [List.head?_cons, Option.mem_some_iff] at first
  rw [← first, mark, Bool.or_true]

theorem intercalate_cons (part : List Token) (parts : List (List Token)) :
    [Token.comma].intercalate (part :: parts) = part ++ parts.flatMap (Token.comma :: ·) := by
  induction parts generalizing part with
  | nil => rw [List.intercalate_singleton, List.flatMap_nil, List.append_nil]
  | cons next parts ih =>
    rw [List.intercalate_cons_cons, ih, List.flatMap_cons, List.append_assoc]
    rfl

/-- The last part, with what stands before it. -/
theorem intercalate_concat (parts : List (List Token)) (last : List Token) :
    [Token.comma].intercalate (parts ++ [last])
      = parts.flatMap (· ++ [Token.comma]) ++ last := by
  induction parts with
  | nil => exact List.intercalate_singleton
  | cons part parts ih =>
    rw [List.flatMap_cons, List.append_assoc, ← ih]
    cases parts with
    | nil => rw [List.nil_append, List.singleton_append, List.intercalate_cons_cons]
    | cons next parts => rw [List.cons_append, List.cons_append, List.intercalate_cons_cons]

theorem apart_intercalate : ∀ {parts : List (List Token)}, (∀ part ∈ parts, Apart part) →
    Apart ([Token.comma].intercalate parts)
  | [], _ => List.IsChain.nil
  | [part], h => by
    rw [List.intercalate_singleton]
    exact h part List.mem_cons_self
  | part :: next :: parts, h => by
    rw [List.intercalate_cons_cons, List.append_assoc]
    exact (h part List.mem_cons_self).append rfl
      (apart_intercalate fun other mem => h other (List.mem_cons_of_mem _ mem))

mutual

/-- **The tokens of a value stand apart.** -/
theorem apart_tokens : ∀ j : Json, Apart j.tokens
  | null => List.IsChain.singleton _
  | bool _ => List.IsChain.singleton _
  | int _ => List.IsChain.singleton _
  | float _ => List.IsChain.singleton _
  | str _ => List.IsChain.singleton _
  | arr items => by
    rw [tokens]
    exact apart_cons rfl ((apart_intercalate (apart_itemTokens items)).append rfl .nil)
  | obj members => by
    rw [tokens]
    exact apart_cons rfl ((apart_intercalate (apart_memberTokens members)).append rfl .nil)

theorem apart_itemTokens : ∀ js : List Json, ∀ part ∈ itemTokens js, Apart part
  | [] => List.forall_mem_nil _
  | j :: js => List.forall_mem_cons.mpr ⟨apart_tokens j, apart_itemTokens js⟩

theorem apart_memberTokens : ∀ ms : List (String × Json), ∀ part ∈ memberTokens ms, Apart part
  | [] => List.forall_mem_nil _
  | (name, j) :: ms => by
    have scalar : Apart [.scalar (.text name)] := List.IsChain.singleton _
    exact List.forall_mem_cons.mpr
      ⟨scalar.append (t := .colon) rfl (apart_tokens j), apart_memberTokens ms⟩

end

end NodeProvisioner.Json
