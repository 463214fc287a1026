import NodeProvisioner.Encoding.Pem

/-!
# Objects in text are read back

Between the boundaries of an object stands Base64, in lines. No boundary begins with a character of
its alphabet and no line is empty, so nothing there is taken for a boundary or for the end of
headers.

Main statement: `decode?_encode`, with a label that a boundary cannot begin in.
-/

namespace NodeProvisioner

namespace Base64

/-- What holds of the alphabet and of the padding holds of all that is written. -/
theorem all_encode {p : Char → Bool} (digits : ∀ n ∈ List.range 64, p (digit n) = true)
    (pad : p '=' = true) (bytes : List UInt8) : (encode bytes).all p = true := by
  have digit_ok {n : Nat} (h : n < 64) : p (digit n) = true := digits n (List.mem_range.mpr h)
  fun_induction encode bytes with
  | case1 a b c rest n ih =>
    have ha := a.toNat_lt; have hb := b.toNat_lt; have hc := c.toNat_lt
    simp only [List.all_cons, ih, Bool.and_true]
    rw [digit_ok (by omega), digit_ok (by omega), digit_ok (by omega), digit_ok (by omega)]
    rfl
  | case2 a b n =>
    have ha := a.toNat_lt; have hb := b.toNat_lt
    simp only [List.all_cons, List.all_nil, pad, Bool.and_true]
    rw [digit_ok (by omega), digit_ok (by omega), digit_ok (by omega)]
    rfl
  | case3 a n =>
    have ha := a.toNat_lt
    simp only [List.all_cons, List.all_nil, pad, Bool.and_true]
    rw [digit_ok (by omega), digit_ok (by omega)]
    rfl
  | case4 => rfl

theorem length_encode (bytes : List UInt8) :
    (encode bytes).length = 4 * ((bytes.length + 2) / 3) := by
  fun_induction encode bytes with
  | case1 a b c rest n ih => simp only [List.length_cons, ih]; omega
  | case2 => simp
  | case3 => simp
  | case4 => simp

end Base64

namespace Pem

/-! ## Markers -/

theorem scan_append (marker ws seen rest : List Char) :
    scan marker ws seen (ws ++ rest)
      = some (((ws.reverse ++ seen).drop marker.length).reverse, rest) := by
  induction ws generalizing seen with
  | nil => simp [scan]
  | cons w ws ih => simp [scan, ih]

/-- What a marker does not begin with is gone past. -/
theorem scan_of_ne {w : Char} {ws cs : List Char} (clear : ∀ c ∈ cs, c ≠ w)
    (seen rest : List Char) :
    scan (w :: ws) (w :: ws) seen (cs ++ rest)
      = scan (w :: ws) (w :: ws) (cs.reverse ++ seen) rest := by
  induction cs generalizing seen with
  | nil => rfl
  | cons c cs ih =>
    have other : c ≠ w := clear c (by simp)
    rw [List.cons_append, scan, if_neg other, ih fun d h => clear d (by simp [h])]
    simp

variable {marker : String} {w : Char} {ws cs : List Char}

/-- The first marker is found where nothing before it is a character that it begins with. -/
theorem splitAt?_append (begins : marker.toList = w :: ws) (clear : ∀ c ∈ cs, c ≠ w)
    (rest : List Char) : splitAt? marker (cs ++ (marker.toList ++ rest)) = some (cs, rest) := by
  have found := scan_append (w :: ws) (w :: ws) cs.reverse rest
  rw [← List.length_reverse, List.drop_left, List.reverse_reverse] at found
  rw [splitAt?, begins, scan_of_ne clear, List.append_nil, found]

theorem splitAt?_eq_none (begins : marker.toList = w :: ws) (clear : ∀ c ∈ cs, c ≠ w) :
    splitAt? marker cs = none := by
  have past : scan (w :: ws) (w :: ws) [] (cs ++ []) = scan (w :: ws) (w :: ws) _ [] :=
    scan_of_ne clear [] []
  rw [List.append_nil] at past
  rw [splitAt?, begins, past, scan]

/-! ## Lines -/

theorem mem_wrapped {c : Char} (h : c ∈ wrapped cs) : c ∈ cs ∨ c = '\n' := by
  induction cs using wrapped.induct with
  | case1 cs empty => simp [wrapped, empty] at h
  | case2 cs nonempty ih =>
    rw [wrapped, if_neg nonempty, List.mem_append, List.mem_cons] at h
    rcases h with line | line_end | later
    · exact .inl (List.mem_of_mem_take line)
    · exact .inr line_end
    · exact (ih later).imp_left List.mem_of_mem_drop

/-- The ends of lines can be taken out again. -/
theorem filter_wrapped {p : Char → Bool} (each : ∀ c ∈ cs, p c = true)
    (line_end : p '\n' = false) : (wrapped cs).filter p = cs := by
  induction cs using wrapped.induct with
  | case1 cs empty => rw [wrapped, if_pos empty, List.isEmpty_iff.mp empty]; rfl
  | case2 cs nonempty ih =>
    have line : (cs.take 64).filter p = cs.take 64 :=
      List.filter_eq_self.mpr fun c h => each c (List.mem_of_mem_take h)
    rw [wrapped, if_neg nonempty, List.filter_append, List.filter_cons, line_end, line,
      ih fun c h => each c (List.mem_of_mem_drop h)]
    exact List.take_append_drop 64 cs

/-- No line is empty. -/
theorem scan_wrapped (plain : ∀ c ∈ cs, c ≠ '\n') (seen : List Char)
    (wanted : ws = ['\n'] ∨ ws = ['\n', '\n']) :
    scan ['\n', '\n'] ws seen (wrapped cs) = none := by
  induction cs using wrapped.induct generalizing ws seen with
  | case1 cs empty =>
    rw [wrapped, if_pos empty]
    rcases wanted with rfl | rfl <;> rfl
  | case2 cs nonempty ih =>
    obtain ⟨c, cs, rfl⟩ := List.exists_cons_of_ne_nil (mt List.isEmpty_iff.mpr nonempty)
    have first : c ≠ '\n' := plain c (by simp)
    have line : ∀ d ∈ cs.take 63, d ≠ '\n' := fun d h =>
      plain d (List.mem_cons_of_mem c (List.mem_of_mem_take h))
    -- Whatever part of an empty line has been seen, the first character of a line undoes it.
    have restart : scan ['\n', '\n'] ws seen (wrapped (c :: cs))
        = scan ['\n', '\n'] ['\n', '\n'] (c :: seen)
            (cs.take 63 ++ '\n' :: wrapped ((c :: cs).drop 64)) := by
      rw [wrapped, if_neg nonempty]
      rcases wanted with rfl | rfl <;> simp [scan, first]
    rw [restart, scan_of_ne line, scan, if_pos rfl]
    exact ih (fun d h => plain d (List.mem_of_mem_drop h)) _ (.inl rfl)

theorem length_wrapped (cs : List Char) :
    (wrapped cs).length = cs.length + (cs.length + 63) / 64 := by
  induction cs using wrapped.induct with
  | case1 cs empty => rw [wrapped, if_pos empty, List.isEmpty_iff.mp empty]; rfl
  | case2 cs nonempty ih =>
    have some_char : cs.length ≠ 0 := by simpa using nonempty
    rw [wrapped, if_neg nonempty]
    simp only [List.length_append, List.length_cons, List.length_take, List.length_drop, ih]
    omega

/-! ## Objects -/

/-- The character can stand in the data of an object: a boundary does not begin with it, and it is
not white space. -/
def isData (c : Char) : Bool := c ≠ '-' && !Text.isBlank c

theorem isData_of_mem {bytes : List UInt8} {c : Char} (h : c ∈ Base64.encode bytes) :
    isData c = true :=
  List.all_eq_true.mp (Base64.all_encode (by decide) (by decide) bytes) c h

theorem not_isBlank_of_mem {bytes : List UInt8} {c : Char} (h : c ∈ Base64.encode bytes) :
    (!Text.isBlank c) = true :=
  ((Bool.and_eq_true _ _).mp (isData_of_mem h)).2

theorem ne_of_mem {bytes : List UInt8} {c d : Char} (h : c ∈ Base64.encode bytes)
    (other : isData d = false) : c ≠ d := by
  rintro rfl
  rw [isData_of_mem h] at other
  cases other

theorem ne_of_mem_wrapped {bytes : List UInt8} {c d : Char}
    (h : c ∈ wrapped (Base64.encode bytes)) (other : isData d = false) (inside : d ≠ '\n') :
    c ≠ d := by
  rcases mem_wrapped h with data | rfl
  · exact ne_of_mem data other
  · exact inside.symm

/-- There are no headers. -/
theorem headersAndData_wrapped (bytes : List UInt8) :
    headersAndData (wrapped (Base64.encode bytes)) = ([], wrapped (Base64.encode bytes)) := by
  have no_blank_line : splitAt? "\n\n" (wrapped (Base64.encode bytes)) = none :=
    scan_wrapped (fun c h => ne_of_mem h (by decide)) [] (.inr rfl)
  have no_return : splitAt? "\r\n\r\n" (wrapped (Base64.encode bytes)) = none :=
    splitAt?_eq_none (show "\r\n\r\n".toList = '\r' :: ['\n', '\r', '\n'] from rfl)
      fun c h => ne_of_mem_wrapped h (by decide) (by decide)
  simp [headersAndData, no_blank_line, no_return]

theorem wrapped_cons (c : Char) (cs : List Char) : ∃ rest, wrapped (c :: cs) = c :: rest := by
  rw [wrapped, if_neg (by simp)]
  exact ⟨_, rfl⟩

/-- The line end after the first boundary is skipped, and no more. -/
theorem skipSpace_wrapped (bytes : List UInt8) (rest : List Char) :
    skipSpace ('\n' :: (wrapped (Base64.encode bytes) ++ ("-----END ".toList ++ rest)))
      = wrapped (Base64.encode bytes) ++ ("-----END ".toList ++ rest) := by
  cases data : Base64.encode bytes with
  | nil => simp [wrapped, skipSpace]
  | cons c cs =>
    obtain ⟨later, text⟩ := wrapped_cons c cs
    have first {d : Char} (other : isData d = false) : c ≠ d :=
      ne_of_mem (data ▸ List.mem_cons_self) other
    have space : c ≠ ' ' := first (by decide)
    have tab : c ≠ '\t' := first (by decide)
    have line_end : c ≠ '\n' := first (by decide)
    have return_ : c ≠ '\r' := first (by decide)
    simp [text, skipSpace, space, tab, line_end, return_]

theorem toList_encode (label : String) (bytes : List UInt8) :
    (encode label bytes).toList = [] ++ ("-----BEGIN ".toList ++ (label.toList ++
      ("-----".toList ++ ('\n' :: (wrapped (Base64.encode bytes) ++ ("-----END ".toList ++
        (label.toList ++ ("-----".toList ++ ['\n'])))))))) := by
  simp [encode, toString]

/-- **An object is read back from its text.** -/
theorem decode?_encode {label : String} (nonempty : label ≠ "")
    (plain : ∀ c ∈ label.toList, c ≠ '-') (bytes : List UInt8) :
    decode? (encode label bytes) = some bytes := by
  have begins : "-----BEGIN ".toList = '-' :: "----BEGIN ".toList := rfl
  have ends : "-----END ".toList = '-' :: "----END ".toList := rfl
  have closes : "-----".toList = '-' :: "----".toList := rfl
  have data_plain : ∀ c ∈ wrapped (Base64.encode bytes), c ≠ '-' := fun c h =>
    ne_of_mem_wrapped h (by decide) (by decide)
  have label_given : label.toList.isEmpty = false := by simpa using nonempty
  have data : (wrapped (Base64.encode bytes)).filter (fun c => !Text.isBlank c)
      = Base64.encode bytes :=
    filter_wrapped (fun c h => not_isBlank_of_mem h) (by decide)
  rw [decode?, toList_encode, splitAt?_append begins (by simp)]
  simp only [Option.bind_eq_bind, Option.bind_some]
  rw [splitAt?_append closes plain]
  simp only [Option.bind_some]
  rw [skipSpace_wrapped, splitAt?_append ends data_plain]
  simp only [Option.bind_some]
  rw [splitAt?_append closes plain]
  simp only [Option.bind_some, headersAndData_wrapped, data, Base64.decode?_encode, label_given]
  simp [linesOf]

/-- The length of the text of an object: four characters for three bytes, and the ends of lines. -/
theorem length_encode (label : String) (bytes : List UInt8) :
    (encode label bytes).length = 4 * ((bytes.length + 2) / 3)
      + (4 * ((bytes.length + 2) / 3) + 63) / 64 + 2 * label.length + 32 := by
  rw [← String.length_toList, toList_encode]
  simp only [List.length_append, List.length_cons, length_wrapped, Base64.length_encode,
    String.length_toList]
  have boundaries : "-----BEGIN ".length = 11 ∧ "-----END ".length = 9 ∧ "-----".length = 5 := by
    decide
  simp only [boundaries, List.length_nil]
  omega

/-- An object is no longer than its text. -/
theorem length_le_length_encode (label : String) (bytes : List UInt8) :
    bytes.length ≤ (encode label bytes).length := by
  rw [length_encode]
  omega

end Pem

end NodeProvisioner
