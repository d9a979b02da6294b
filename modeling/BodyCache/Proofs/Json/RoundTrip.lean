import Mathlib.Tactic.SplitIfs
import BodyCache.Json.Reader

/-!
# The Text of a Value Is Read as That Value

Writing a value and reading the text gives the value back, for every value without foreign parts:
texts with any characters, numbers of any size, lists and objects of any length and nesting.

What follows a value never matters, except that a number must not run on into it. The blanks that
the writer puts between tokens are those that the reader skips. A value of `n` characters needs at
most `2 * n` nested calls of the reader, which is the bound that the reader starts with.

## Main results

* `Json.scanText_escaped`, `Json.textOf?_toNat`: a quoted text is read back.
* `Json.scanNumber?_toDigits`: a number is read back.
* `Json.Plain.readsBack`: a value is read back, at any level of indentation and whatever follows.
* `Json.parse?_pretty`: the text of a value is read as that value.
-/

namespace BodyCache

/-! ### Hexadecimal digits -/

/-- A digit has the value it was written for. -/
theorem Hex.value?_digit {n : Nat} (h : n < 16) : Hex.value? (Hex.digit n) = some n := by
  have hall : ∀ n, n < 16 → Hex.value? (Hex.digit n) = some n := by decide
  exact hall n h

/-- Four digits, two of them zeros, have the value of the other two. -/
theorem Hex.number?_byte {n : Nat} (h : n < 256) :
    Hex.number? ['0', '0', Hex.digit (n / 16), Hex.digit (n % 16)] = some n := by
  have hhigh : Hex.value? (Hex.digit (n / 16)) = some (n / 16) := Hex.value?_digit (by omega)
  have hlow : Hex.value? (Hex.digit (n % 16)) = some (n % 16) := Hex.value?_digit (by omega)
  have hzero : Hex.value? '0' = some 0 := by decide
  have hsum : 16 * (n / 16) + n % 16 = n := by omega
  simp [Hex.number?, hhigh, hlow, hzero, hsum]

namespace Json

/-! ### Texts -/

section

variable {c e : Char} {n : Nat} {cs : List Char}

/-- A text that goes on after an escape of one letter. -/
theorem scanText_simpleEscape (h : simpleEscape? e = some c) :
    scanText ('\\' :: e :: cs) = (scanText cs).map fun r => (c.toNat :: r.1, r.2) := by
  have hu : e ≠ 'u' := by
    rintro rfl
    simp [simpleEscape?] at h
  rw [scanText.eq_3 e cs fun _ _ _ _ _ he _ => hu he, h]
  cases scanText cs <;> rfl

/-- A text that goes on after an escape of four digits. -/
theorem scanText_unicodeEscape {a b x y : Char} (h : Hex.number? [a, b, x, y] = some n) :
    scanText ('\\' :: 'u' :: a :: b :: x :: y :: cs) =
      (scanText cs).map fun r => (n :: r.1, r.2) := by
  rw [scanText.eq_2, h]
  cases scanText cs <;> rfl

/-- A text that goes on after a character that stands for itself. -/
theorem scanText_plain (hquote : c ≠ '"') (hback : c ≠ '\\') (hcontrol : ¬c.toNat < 32) :
    scanText (c :: cs) = (scanText cs).map fun r => (c.toNat :: r.1, r.2) := by
  rw [scanText.eq_4 c cs hquote (fun _ _ _ _ _ h _ => hback h) (fun _ _ h _ => hback h),
    if_neg (not_or.mpr ⟨hcontrol, hback⟩)]
  cases scanText cs <;> rfl

/-- A character is read back from its escaped form. -/
theorem scanText_escaped (c : Char) (cs : List Char) :
    scanText (escaped c ++ cs) = (scanText cs).map fun r => (c.toNat :: r.1, r.2) := by
  unfold escaped
  split_ifs with hquote hback hb hf hn hr ht hcontrol
  · rw [hquote]
    exact scanText_simpleEscape (by decide)
  · rw [hback]
    exact scanText_simpleEscape (by decide)
  · rw [hb]
    exact scanText_simpleEscape (by decide)
  · rw [hf]
    exact scanText_simpleEscape (by decide)
  · rw [hn]
    exact scanText_simpleEscape (by decide)
  · rw [hr]
    exact scanText_simpleEscape (by decide)
  · rw [ht]
    exact scanText_simpleEscape (by decide)
  · exact scanText_unicodeEscape (Hex.number?_byte (by omega))
  · exact scanText_plain hquote hback hcontrol

/-- A quoted text is read up to its closing quotation mark, as the code points of the text. -/
theorem scanText_flatMap_escaped (text rest : List Char) :
    scanText (text.flatMap escaped ++ '"' :: rest) = some (text.map Char.toNat, rest) := by
  induction text with
  | nil => rfl
  | cons c text ih =>
      rw [List.flatMap_cons, List.append_assoc, scanText_escaped, ih]
      rfl

/-- No character is half of a pair. -/
theorem not_surrogate (c : Char) :
    isHighSurrogate c.toNat = false ∧ isLowSurrogate c.toNat = false := by
  have h : c.toNat < 0xD800 ∨ 0xDFFF < c.toNat ∧ c.toNat < 0x110000 := c.valid
  simp only [isHighSurrogate, isLowSurrogate, Bool.and_eq_false_iff, decide_eq_false_iff_not]
  omega

/-- The code points of a text are those of its characters. -/
theorem joinPairs?_toNat (text : List Char) : joinPairs? (text.map Char.toNat) = some text := by
  induction text with
  | nil => rfl
  | cons c text ih =>
      obtain ⟨hhigh, hlow⟩ := not_surrogate c
      cases text with
      | nil => simp [joinPairs?, hhigh, hlow]
      | cons d text =>
          rw [List.map_cons, List.map_cons, joinPairs?, hhigh, hlow, ← List.map_cons, ih]
          simp

/-- The code points of a text denote the text. -/
theorem textOf?_toNat (s : String) : textOf? (s.toList.map Char.toNat) = some s := by
  rw [textOf?, joinPairs?_toNat, Option.map_some, String.ofList_toList]

end

/-! ### Numbers -/

/-- What may follow a number without becoming a part of it. -/
def EndsNumber (rest : List Char) : Prop :=
  ∀ c, rest.head? = some c → c.isDigit = false ∧ c ≠ '.' ∧ c ≠ 'e' ∧ c ≠ 'E'

/-- A number without further digits begins with zero only if it is zero. -/
theorem eq_zero_of_toDigits {n : Nat} {ds : List Char} (h : Nat.toDigits 10 n = '0' :: ds) :
    n = 0 ∧ ds = [] := by
  induction n using Nat.strongRecOn generalizing ds with
  | ind n ih =>
      have hdigit : ∀ d, d < 10 → Nat.digitChar d = '0' → d = 0 := by decide
      rw [Nat.toDigits_eq_if (by decide)] at h
      split at h
      · next hlt =>
        obtain ⟨hd, rfl⟩ := List.cons.inj h
        exact ⟨hdigit n hlt hd, rfl⟩
      · next hge =>
        cases hds : Nat.toDigits 10 (n / 10) with
        | nil => exact absurd hds Nat.toDigits_ne_nil
        | cons d ds' =>
            rw [hds, List.cons_append] at h
            obtain ⟨rfl, -⟩ := List.cons.inj h
            obtain ⟨hzero, -⟩ := ih (n / 10) (by omega) hds
            omega

/-- The digits of a number are all digits. -/
theorem isDigit_of_mem_toDigits {n : Nat} {c : Char} (h : c ∈ Nat.toDigits 10 n) :
    c.isDigit = true := Nat.isDigit_of_mem_toDigits (by decide) (by decide) h

/-- The digits of a number are scanned as they stand. -/
theorem scanDigits?_toDigits (n : Nat) {rest : List Char} (hrest : EndsNumber rest) :
    scanDigits? (Nat.toDigits 10 n ++ rest) = some (Nat.toDigits 10 n, rest) := by
  have hdigits : ∀ c ∈ Nat.toDigits 10 n, c.isDigit = true := fun _ => isDigit_of_mem_toDigits
  have hstop : rest.takeWhile Char.isDigit = [] ∧ rest.dropWhile Char.isDigit = rest := by
    cases rest with
    | nil => exact ⟨rfl, rfl⟩
    | cons c rest => simp [(hrest c rfl).1]
  have htake : (Nat.toDigits 10 n ++ rest).takeWhile Char.isDigit = Nat.toDigits 10 n := by
    rw [List.takeWhile_append_of_pos hdigits, hstop.1, List.append_nil]
  have hdrop : (Nat.toDigits 10 n ++ rest).dropWhile Char.isDigit = rest := by
    rw [List.dropWhile_append_of_pos hdigits, hstop.2]
  rw [scanDigits?, htake, hdrop]
  cases h : Nat.toDigits 10 n with
  | nil => exact absurd h Nat.toDigits_ne_nil
  | cons d ds => rfl

/-- The digits of a number are a number without further digits. -/
theorem scanWhole?_toDigits (n : Nat) {rest : List Char} (hrest : EndsNumber rest) :
    scanWhole? (Nat.toDigits 10 n ++ rest) = some (Nat.toDigits 10 n, rest) := by
  cases hds : Nat.toDigits 10 n with
  | nil => exact absurd hds Nat.toDigits_ne_nil
  | cons d ds =>
      by_cases hd : d = '0'
      · subst hd
        obtain ⟨-, rfl⟩ := eq_zero_of_toDigits hds
        cases rest with
        | nil => rfl
        | cons c rest =>
            have hc := (hrest c rfl).1
            simp [scanWhole?, hc]
      · have h := scanDigits?_toDigits n hrest
        rw [hds] at h
        rw [List.cons_append] at h ⊢
        rw [scanWhole?, h]
        intro _ heq
        exact hd (List.cons.inj heq).1

/-- Nothing is skipped as a fraction after a number that ends. -/
theorem skipFraction?_of_endsNumber {rest : List Char} (h : EndsNumber rest) :
    skipFraction? rest = some rest := by
  cases rest with
  | nil => rfl
  | cons c rest =>
      rw [skipFraction?]
      rintro _ heq
      exact (h c rfl).2.1 (List.cons.inj heq).1

/-- Nothing is skipped as an exponent after a number that ends. -/
theorem skipExponent?_of_endsNumber {rest : List Char} (h : EndsNumber rest) :
    skipExponent? rest = some rest := by
  cases rest with
  | nil => rfl
  | cons c rest =>
      obtain ⟨-, -, he, hE⟩ := h c rfl
      simp [skipExponent?, he, hE]

/-- A number is read back. -/
theorem scanNumber?_toDigits (n : Nat) {rest : List Char} (hrest : EndsNumber rest) :
    scanNumber? (Nat.toDigits 10 n ++ rest) = some (.natural n, rest) := by
  have hminus : ∀ r, Nat.toDigits 10 n ++ rest ≠ '-' :: r := by
    intro r h
    cases hds : Nat.toDigits 10 n with
    | nil => exact Nat.toDigits_ne_nil hds
    | cons d ds =>
        rw [hds] at h
        have hd : d.isDigit = true := isDigit_of_mem_toDigits (hds ▸ List.mem_cons_self)
        rw [(List.cons.inj h).1] at hd
        exact absurd hd (by decide)
  rw [scanNumber?, scanWhole?_toDigits n hrest]
  · simp [skipFraction?_of_endsNumber hrest, skipExponent?_of_endsNumber hrest,
      Nat.ofDigitChars_toDigits]
  · exact hminus

/-! ### Blanks between tokens -/

/-- Nothing is skipped before a character that is not blank. -/
theorem skipBlanks_cons {c : Char} (h : isBlank c = false) (rest : List Char) :
    skipBlanks (c :: rest) = c :: rest := by
  rw [skipBlanks, List.dropWhile_cons_of_neg (by simp [h])]

/-- The end of a line is skipped, with the blanks that open the next one. -/
theorem skipBlanks_newline (level : Nat) {c : Char} (h : isBlank c = false) (rest : List Char) :
    skipBlanks (newline level ++ c :: rest) = c :: rest := by
  have hblank : ∀ x ∈ newline level, isBlank x = true := by
    intro x hx
    obtain rfl | hx := List.mem_cons.mp hx
    · rfl
    · rw [List.eq_of_mem_replicate hx]
      rfl
  rw [skipBlanks, List.dropWhile_append_of_pos hblank]
  exact skipBlanks_cons h rest

/-- The end of a line ends a number. -/
theorem endsNumber_cons {c : Char} (h : c = ',' ∨ c = '\n') (rest : List Char) :
    EndsNumber (c :: rest) := by
  intro x hx
  cases hx
  obtain rfl | rfl := h <;> decide

/-! ### What a value begins with -/

/-- There is no value in an empty text. -/
theorem value?_nil (fuel : Nat) : value? fuel [] = none := by
  cases fuel with
  | zero => rw [value?]
  | succ fuel =>
      rw [value?]
      · rfl
      all_goals
        intro _ heq
        cases heq

/-- There are no items in an empty text. -/
theorem items?_nil (fuel : Nat) : items? fuel [] = none := by
  cases fuel with
  | zero => rw [items?]
  | succ fuel =>
      rw [items?, value?_nil]
      rfl

/-- There are no members in an empty text. -/
theorem members?_nil (fuel : Nat) : members? fuel [] = none := by
  cases fuel with
  | zero => rw [members?]
  | succ fuel =>
      rw [members?]
      intro _ heq
      cases heq

/-- What stands between an opening and a closing bracket: nothing, or what is read up to the closing
one. -/
def bracketed {α : Type} (close : Char) (pack : List α → Json)
    (read : List Char → Option (List α × List Char)) (cs : List Char) :
    Option (Json × List Char) :=
  match skipBlanks cs with
  | [] => none
  | c :: rest =>
    if c = close then some (pack [], rest) else (read (c :: rest)).map fun r => (pack r.1, r.2)

/-- What begins with anything else than the closing bracket is read up to that bracket. -/
theorem bracketed_of_ne {α : Type} {close c : Char} {pack : List α → Json}
    {read : List Char → Option (List α × List Char)} {cs rest : List Char}
    (hcs : skipBlanks cs = c :: rest) (hc : c ≠ close) :
    bracketed close pack read cs = (read (c :: rest)).map fun r => (pack r.1, r.2) := by
  rw [bracketed, hcs]
  exact if_neg hc

/-- An array is read between brackets. -/
theorem value?_array (fuel : Nat) (cs : List Char) :
    value? (fuel + 1) ('[' :: cs) = bracketed ']' array (items? fuel) cs := by
  rw [value?, bracketed]
  cases skipBlanks cs with
  | nil => simp [items?_nil]
  | cons c rest =>
      by_cases hc : c = ']'
      · subst hc
        rfl
      · simp only [if_neg hc]
        split
        · next heq => exact absurd (List.cons.inj heq).1 hc
        · cases items? fuel (c :: rest) <;> rfl

/-- An object is read between braces. -/
theorem value?_object (fuel : Nat) (cs : List Char) :
    value? (fuel + 1) ('\x7b' :: cs) = bracketed '\x7d' ofMembers (members? fuel) cs := by
  rw [value?, bracketed]
  cases skipBlanks cs with
  | nil => simp [members?_nil]
  | cons c rest =>
      by_cases hc : c = '\x7d'
      · subst hc
        rfl
      · simp only [if_neg hc]
        split
        · next heq => exact absurd (List.cons.inj heq).1 hc
        · cases members? fuel (c :: rest) <;> rfl

/-- The characters that a text, an array, an object or a word begins with. -/
def openings : List Char := ['"', '[', '\x7b', 'n', 't', 'f']

/-- A value with any other beginning is read as a number. -/
theorem value?_of_not_mem {c : Char} (hc : c ∉ openings) (fuel : Nat) (cs : List Char) :
    value? (fuel + 1) (c :: cs) = scanNumber? (c :: cs) := by
  rw [value?]
  all_goals
    intro _ heq
    obtain ⟨rfl, -⟩ := List.cons.inj heq
    exact hc (by decide)

/-! ### Values -/

/-- A value without foreign parts. -/
inductive Plain : Json → Prop where
  | null : Plain .null
  | natural (n : Nat) : Plain (.natural n)
  | text (s : String) : Plain (.text s)
  | array {items : List Json} (h : ∀ j ∈ items, Plain j) : Plain (.array items)
  | object {members : List (String × Json)} (h : ∀ m ∈ members, Plain m.2) :
    Plain (.object members)

/-- A value that is read back at any level, with enough nested calls and whatever follows. -/
def ReadsBack (j : Json) : Prop :=
  ∀ level fuel rest, 2 * (j.render level).length ≤ fuel → EndsNumber rest →
    value? fuel (j.render level ++ rest) = some (j, rest)

/-- A digit is none of the other characters. -/
theorem ne_of_isDigit {c d : Char} (hc : c.isDigit = true) (hd : d.isDigit = false) : c ≠ d := by
  rintro rfl
  rw [hc] at hd
  cases hd

/-- The text of a value begins with a character that is not blank and closes nothing. -/
theorem exists_render_eq_cons (j : Json) (level : Nat) :
    ∃ c cs, j.render level = c :: cs ∧ isBlank c = false ∧ c ≠ ']' := by
  cases j with
  | null | foreign => exact ⟨_, _, rfl, by decide, by decide⟩
  | text s => exact ⟨_, _, rfl, by decide, by decide⟩
  | array items =>
      cases items with
      | nil => exact ⟨_, _, rfl, by decide, by decide⟩
      | cons item items => exact ⟨_, _, rfl, by decide, by decide⟩
  | object members =>
      cases members with
      | nil => exact ⟨_, _, rfl, by decide, by decide⟩
      | cons m members => exact ⟨_, _, rfl, by decide, by decide⟩
  | natural n =>
      cases hds : Nat.toDigits 10 n with
      | nil => exact absurd hds Nat.toDigits_ne_nil
      | cons d ds =>
          have hd : d.isDigit = true := isDigit_of_mem_toDigits (hds ▸ List.mem_cons_self)
          have hne : ∀ c, c.isDigit = false → d ≠ c := fun c hc => ne_of_isDigit hd hc
          refine ⟨d, ds, hds, ?_, hne ']' (by decide)⟩
          simp [isBlank, hne ' ' (by decide), hne '\n' (by decide), hne '\t' (by decide),
            hne '\r' (by decide)]

/-- A quoted text begins with its quotation mark and ends before what follows. -/
theorem quoted_append (s : String) (rest : List Char) :
    quoted s ++ rest = '"' :: (s.toList.flatMap escaped ++ '"' :: rest) := by
  simp [quoted]

/-- The bound on nested calls allows at least one. -/
theorem exists_fuel {j : Json} {level fuel : Nat} (h : 2 * (j.render level).length ≤ fuel) :
    ∃ n, fuel = n + 1 := by
  obtain ⟨c, cs, hcs, -⟩ := j.exists_render_eq_cons level
  rw [hcs, List.length_cons] at h
  exact ⟨fuel - 1, by omega⟩

/-- The absent value is read back. -/
theorem readsBack_null : ReadsBack .null := by
  intro level fuel rest hfuel _
  obtain ⟨fuel, rfl⟩ := exists_fuel hfuel
  rfl

/-- A text is read back. -/
theorem readsBack_text (s : String) : ReadsBack (.text s) := by
  intro level fuel rest hfuel _
  obtain ⟨fuel, rfl⟩ := exists_fuel hfuel
  rw [render, quoted_append]
  simp [value?, scanText_flatMap_escaped, textOf?_toNat]

/-- A number is read back if it ends where it was meant to. -/
theorem readsBack_natural (n : Nat) : ReadsBack (.natural n) := by
  intro level fuel rest hfuel hrest
  obtain ⟨fuel, rfl⟩ := exists_fuel hfuel
  have hscan := scanNumber?_toDigits n hrest
  rw [render]
  cases hds : Nat.toDigits 10 n with
  | nil => exact absurd hds Nat.toDigits_ne_nil
  | cons d ds =>
      have hd : d.isDigit = true := isDigit_of_mem_toDigits (hds ▸ List.mem_cons_self)
      have hopenings : ∀ c ∈ openings, c.isDigit = false := by
        simp only [openings, List.forall_mem_cons]
        exact ⟨rfl, rfl, rfl, rfl, rfl, rfl, List.forall_mem_nil _⟩
      rw [hds, List.cons_append] at hscan
      rw [List.cons_append, value?_of_not_mem fun hmem => ?_, hscan]
      exact ne_of_isDigit hd (hopenings d hmem) rfl

/-- The blanks before a value on a line of its own are skipped. -/
theorem skipBlanks_newline_render (j : Json) (level : Nat) (rest : List Char) :
    skipBlanks (newline level ++ (j.render level ++ rest)) = j.render level ++ rest := by
  obtain ⟨c, cs, hcs, hc, -⟩ := j.exists_render_eq_cons level
  rw [hcs, List.cons_append, skipBlanks_newline level hc]

/-- Items are read back up to the closing bracket. -/
theorem items?_render {item : Json} {items : List Json} (hitem : ReadsBack item)
    (hitems : ∀ j ∈ items, ReadsBack j) {level fuel : Nat} (below : Nat) (rest : List Char)
    (hfuel : 2 * (item.render level ++ renderItems level items).length < fuel) :
    items? fuel (item.render level ++ (renderItems level items ++
      (newline below ++ ']' :: rest))) = some (item :: items, rest) := by
  induction items generalizing item fuel with
  | nil =>
      obtain ⟨fuel, rfl⟩ : ∃ f, fuel = f + 1 := ⟨fuel - 1, by omega⟩
      rw [List.length_append] at hfuel
      have hread := hitem level fuel (newline below ++ ']' :: rest) (by omega)
        (endsNumber_cons (.inr rfl) _)
      rw [renderItems, List.nil_append, items?, hread]
      simp [skipBlanks_newline below (c := ']') (by decide)]
  | cons x xs ih =>
      obtain ⟨fuel, rfl⟩ : ∃ f, fuel = f + 1 := ⟨fuel - 1, by omega⟩
      have hcomma : isBlank ',' = false := by decide
      rw [renderItems] at hfuel ⊢
      simp only [List.length_append, List.length_cons] at hfuel
      have hread := hitem level fuel (',' :: (newline level ++ (x.render level ++
        (renderItems level xs ++ (newline below ++ ']' :: rest))))) (by omega)
        (endsNumber_cons (.inl rfl) _)
      have hsize : 2 * (x.render level ++ renderItems level xs).length < fuel := by
        rw [List.length_append]
        omega
      have hrest := ih (hitems x List.mem_cons_self)
        (fun j hj => hitems j (List.mem_cons_of_mem x hj)) hsize
      simp only [List.cons_append, List.append_assoc]
      rw [items?, hread]
      simp [skipBlanks_cons hcomma, skipBlanks_newline_render, hrest]

/-- A list of values that are read back is read back. -/
theorem readsBack_array {items : List Json} (h : ∀ j ∈ items, ReadsBack j) :
    ReadsBack (.array items) := by
  intro level fuel rest hfuel _
  obtain ⟨fuel, rfl⟩ := exists_fuel hfuel
  cases items with
  | nil => rfl
  | cons item items =>
      rw [render] at hfuel ⊢
      simp only [List.length_append, List.length_cons] at hfuel
      have hsize : 2 * (item.render (level + 1) ++
          renderItems (level + 1) items).length < fuel := by
        rw [List.length_append]
        omega
      have hread := items?_render (h item List.mem_cons_self)
        (fun j hj => h j (List.mem_cons_of_mem item hj)) level rest hsize
      obtain ⟨c, cs, hcs, -, hc⟩ := item.exists_render_eq_cons (level + 1)
      have hblanks (after : List Char) :
          skipBlanks (newline (level + 1) ++ (item.render (level + 1) ++ after)) =
            c :: (cs ++ after) := by
        rw [skipBlanks_newline_render, hcs, List.cons_append]
      rw [hcs, List.cons_append] at hread
      simp only [List.cons_append, List.append_assoc, List.nil_append]
      rw [value?_array, bracketed_of_ne (hblanks _) hc, hread]
      rfl

/-- The blanks before a name on a line of its own are skipped. -/
theorem skipBlanks_newline_quoted (s : String) (level : Nat) (rest : List Char) :
    skipBlanks (newline level ++ (quoted s ++ rest)) = quoted s ++ rest := by
  rw [quoted_append, skipBlanks_newline level (by decide)]

/-- The blank between a name and its value is skipped. -/
theorem skipBlanks_blank_render (j : Json) (level : Nat) (rest : List Char) :
    skipBlanks (' ' :: (j.render level ++ rest)) = j.render level ++ rest := by
  obtain ⟨c, cs, hcs, hc, -⟩ := j.exists_render_eq_cons level
  rw [skipBlanks, List.dropWhile_cons_of_pos (by decide), hcs, List.cons_append]
  exact skipBlanks_cons hc _

/-- Members are read back up to the closing brace. -/
theorem members?_render {m : String × Json} {members : List (String × Json)}
    (hm : ReadsBack m.2) (hmembers : ∀ m ∈ members, ReadsBack m.2) {level fuel : Nat}
    (below : Nat) (rest : List Char)
    (hfuel : 2 * (quoted m.1 ++ (':' :: ' ' :: (m.2.render level ++
      renderMembers level members))).length < fuel) :
    members? fuel (quoted m.1 ++ (':' :: ' ' :: (m.2.render level ++
      (renderMembers level members ++ (newline below ++ '\x7d' :: rest))))) =
      some ((m :: members).map fun x => (some x.1, x.2), rest) := by
  have hcolon : isBlank ':' = false := by decide
  have hcomma : isBlank ',' = false := by decide
  induction members generalizing m fuel with
  | nil =>
      obtain ⟨fuel, rfl⟩ : ∃ f, fuel = f + 1 := ⟨fuel - 1, by omega⟩
      simp only [List.length_append, List.length_cons] at hfuel
      have hread := hm level fuel (newline below ++ '\x7d' :: rest) (by omega)
        (endsNumber_cons (.inr rfl) _)
      rw [renderMembers, List.nil_append, quoted_append, members?]
      simp [scanText_flatMap_escaped, skipBlanks_cons hcolon, skipBlanks_blank_render, hread,
        textOf?_toNat, skipBlanks_newline below (c := '\x7d') (by decide)]
  | cons x xs ih =>
      obtain ⟨fuel, rfl⟩ : ∃ f, fuel = f + 1 := ⟨fuel - 1, by omega⟩
      rw [renderMembers] at hfuel ⊢
      simp only [List.length_append, List.length_cons] at hfuel
      have hread := hm level fuel (',' :: (newline level ++ (quoted x.1 ++ (':' :: ' ' ::
        (x.2.render level ++ (renderMembers level xs ++ (newline below ++ '\x7d' :: rest)))))))
        (by omega) (endsNumber_cons (.inl rfl) _)
      have hsize : 2 * (quoted x.1 ++ ':' :: ' ' ::
          (x.2.render level ++ renderMembers level xs)).length < fuel := by
        simp only [List.length_append, List.length_cons]
        omega
      have hrest := ih (hmembers x List.mem_cons_self)
        (fun j hj => hmembers j (List.mem_cons_of_mem x hj)) hsize
      simp only [List.cons_append, List.append_assoc]
      rw [quoted_append m.1, members?]
      simp [scanText_flatMap_escaped, skipBlanks_cons hcolon, skipBlanks_blank_render, hread,
        textOf?_toNat, skipBlanks_cons hcomma, skipBlanks_newline_quoted, hrest]

/-- Members whose names are texts are an object. -/
theorem ofMembers_map_some (members : List (String × Json)) :
    ofMembers (members.map fun m => (some m.1, m.2)) = .object members := by
  have h : (members.map fun m => (some m.1, m.2)).mapM
      (fun m : Option String × Json => m.1.map (·, m.2)) = some members := by
    induction members with
    | nil => rfl
    | cons m members ih =>
        rw [List.map_cons, List.mapM_cons, ih]
        rfl
  rw [ofMembers, h]

/-- An object whose values are read back is read back. -/
theorem readsBack_object {members : List (String × Json)} (h : ∀ m ∈ members, ReadsBack m.2) :
    ReadsBack (.object members) := by
  intro level fuel rest hfuel _
  obtain ⟨fuel, rfl⟩ := exists_fuel hfuel
  cases members with
  | nil => rfl
  | cons m members =>
      rw [render] at hfuel ⊢
      simp only [List.length_append, List.length_cons] at hfuel
      have hsize : 2 * (quoted m.1 ++ ':' :: ' ' ::
          (m.2.render (level + 1) ++ renderMembers (level + 1) members)).length < fuel := by
        simp only [List.length_append, List.length_cons]
        omega
      have hread := members?_render (h m List.mem_cons_self)
        (fun j hj => h j (List.mem_cons_of_mem m hj)) level rest hsize
      have hblanks (after : List Char) :
          skipBlanks (newline (level + 1) ++ (quoted m.1 ++ after)) =
            '"' :: (m.1.toList.flatMap escaped ++ '"' :: after) := by
        rw [skipBlanks_newline_quoted, quoted_append]
      rw [quoted_append] at hread
      simp only [List.cons_append, List.append_assoc, List.nil_append]
      rw [value?_object, bracketed_of_ne (hblanks _) (by decide), hread, Option.map_some,
        ofMembers_map_some]

/-- A value without foreign parts is read back. -/
theorem Plain.readsBack {j : Json} (h : j.Plain) : ReadsBack j := by
  induction h with
  | null => exact readsBack_null
  | natural n => exact readsBack_natural n
  | text s => exact readsBack_text s
  | array _ ih => exact readsBack_array ih
  | object _ ih => exact readsBack_object ih

/-- **The text of a value is read as that value**, if it has no foreign parts. -/
theorem parse?_pretty {j : Json} (h : j.Plain) : parse? j.pretty = some j := by
  obtain ⟨c, cs, hcs, hc, -⟩ := j.exists_render_eq_cons 0
  have hstart : skipBlanks (j.render 0) = j.render 0 := by
    rw [hcs, skipBlanks_cons hc]
  have hread := h.readsBack 0 (2 * (j.render 0).length + 2) [] (by omega) (by simp [EndsNumber])
  rw [List.append_nil] at hread
  rw [parse?, pretty, String.toList_ofList, hstart, hread]
  rfl

end Json

end BodyCache
