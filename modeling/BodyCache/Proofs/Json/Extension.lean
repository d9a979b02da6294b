import BodyCache.Proofs.Json.RoundTrip

/-!
# Reading a Text That Goes On

What the reader has read at the front of a text it also reads when the text goes on, and leaves
all that is added. The end of a number is the one place where the reader looks at what follows, so
a number must be followed by something already. A larger bound on nested calls makes no difference
either.

It follows that an object is not read before its closing brace: a text that is cut off is refused.

## Main results

* `Json.Extends.all`: the readers of values, items and members read alike in a longer text.
* `Json.parse?_eq_none_of_cut`: the text of an object is refused when its end is missing.
-/

namespace BodyCache.Json

variable {cs rest : List Char}

/-! ### Tokens -/

/-- Blanks are skipped alike in a longer text, if something else is left. -/
theorem skipBlanks_append (h : skipBlanks cs ≠ []) (more : List Char) :
    skipBlanks (cs ++ more) = skipBlanks cs ++ more := by
  rw [skipBlanks, List.dropWhile_append, if_neg]
  · rfl
  · simpa [skipBlanks] using h

/-- The character after the blanks is the same in a longer text. -/
theorem skipBlanks_append_of_eq {c : Char} (h : skipBlanks cs = c :: rest) (more : List Char) :
    skipBlanks (cs ++ more) = c :: (rest ++ more) := by
  rw [skipBlanks_append (by rw [h]; exact List.cons_ne_nil _ _), h, List.cons_append]

/-- A quoted text is scanned alike in a longer text. -/
theorem scanText_append {units : List Nat} (h : scanText cs = some (units, rest))
    (more : List Char) : scanText (cs ++ more) = some (units, rest ++ more) := by
  fun_induction scanText cs generalizing units rest with
  | case1 r =>
      cases h
      rfl
  | case2 a b c d r ih =>
      simp only [bind, Option.bind_eq_some_iff] at h
      obtain ⟨unit, hunit, ⟨us, r'⟩, hr, h⟩ := h
      cases h
      simp only [List.cons_append]
      rw [scanText.eq_2, hunit, ih hr]
      rfl
  | case3 e r hne ih =>
      simp only [bind, Option.bind_eq_some_iff] at h
      obtain ⟨c, hc, ⟨us, r'⟩, hr, h⟩ := h
      cases h
      have hu : e ≠ 'u' := by
        rintro rfl
        simp [simpleEscape?] at hc
      simp only [List.cons_append]
      rw [scanText.eq_3 e _ (fun _ _ _ _ _ he _ => hu he), hc, ih hr]
      rfl
  | case4 c r hquote hu hback hbad => cases h
  | case5 c r hquote hu hback hgood ih =>
      simp only [bind, Option.bind_eq_some_iff] at h
      obtain ⟨⟨us, r'⟩, hr, h⟩ := h
      cases h
      obtain ⟨hcontrol, hb⟩ := not_or.mp hgood
      rw [List.cons_append, scanText.eq_4 c _ hquote (fun _ _ _ _ _ h _ => hb h)
        (fun _ _ h _ => hb h), if_neg hgood, ih hr]
      rfl
  | case6 => cases h

/-- Digits are scanned alike in a longer text, if something else follows them. -/
theorem scanDigits?_append {ds : List Char} (h : scanDigits? cs = some (ds, rest))
    (hrest : rest ≠ []) (more : List Char) :
    scanDigits? (cs ++ more) = some (ds, rest ++ more) := by
  unfold scanDigits? at h ⊢
  split at h
  · cases h
  · next hds hnil  =>
    cases h
    have hdrop := hrest
    have htake : (cs ++ more).takeWhile Char.isDigit = cs.takeWhile Char.isDigit := by
      rw [List.takeWhile_append, if_neg]
      intro hlen
      apply hrest
      have h := congrArg List.length (List.takeWhile_append_dropWhile (p := Char.isDigit) (l := cs))
      rw [List.length_append, hlen] at h
      exact List.length_eq_zero_iff.mp (by omega)
    rw [htake, List.dropWhile_append, if_neg (by simpa using hrest)]
    split
    · next hnil' => exact absurd hnil' hnil
    · rfl

/-- The digits before a point are scanned alike in a longer text, if something follows them. -/
theorem scanWhole?_append {ds : List Char} (h : scanWhole? cs = some (ds, rest))
    (hrest : rest ≠ []) (more : List Char) :
    scanWhole? (cs ++ more) = some (ds, rest ++ more) := by
  unfold scanWhole? at h
  split at h
  · next r =>
    cases r with
    | nil =>
      cases h
      exact absurd rfl hrest
    | cons c r =>
      simp only [List.cons_append, scanWhole?]
      simp only at h
      split_ifs at h ⊢ with hc
      cases h
      rfl
  · next hzero =>
    have hz : ∀ r, cs ++ more ≠ '0' :: r := by
      intro r heq
      cases cs with
      | nil => cases h
      | cons c cs =>
        rw [List.cons_append] at heq
        exact hzero cs (by rw [(List.cons.inj heq).1])
    rw [scanWhole?]
    · exact scanDigits?_append h hrest more
    · exact hz

/-- A fraction is skipped alike in a longer text, if something follows it. -/
theorem skipFraction?_append (h : skipFraction? cs = some rest) (hrest : rest ≠ [])
    (more : List Char) : skipFraction? (cs ++ more) = some (rest ++ more) := by
  cases cs with
  | nil =>
      cases h
      exact absurd rfl hrest
  | cons c cs =>
      by_cases hc : c = '.'
      · subst hc
        rw [skipFraction?, Option.map_eq_some_iff] at h
        obtain ⟨⟨ds, r⟩, hds, rfl⟩ := h
        rw [List.cons_append, skipFraction?, scanDigits?_append hds hrest more]
        rfl
      · have hdot : ∀ r, c :: cs ≠ '.' :: r := fun r heq => hc (List.cons.inj heq).1
        have hdot' : ∀ r, c :: (cs ++ more) ≠ '.' :: r := fun r heq => hc (List.cons.inj heq).1
        rw [skipFraction?.eq_2 _ hdot] at h
        cases h
        rw [List.cons_append, skipFraction?.eq_2 _ hdot']

/-- An exponent is skipped alike in a longer text, if something follows it. -/
theorem skipExponent?_append (h : skipExponent? cs = some rest) (hrest : rest ≠ [])
    (more : List Char) : skipExponent? (cs ++ more) = some (rest ++ more) := by
  cases cs with
  | nil =>
      cases h
      exact absurd rfl hrest
  | cons c cs =>
      rw [List.cons_append]
      unfold skipExponent? at h ⊢
      simp only at h ⊢
      by_cases hc : c = 'e' ∨ c = 'E'
      · rw [if_pos hc] at h ⊢
        cases cs with
        | nil => cases h
        | cons s cs =>
            rw [List.cons_append]
            by_cases hs : s = '+' ∨ s = '-'
            · simp only [if_pos hs, Option.map_eq_some_iff] at h ⊢
              obtain ⟨⟨ds, r⟩, hds, rfl⟩ := h
              exact ⟨_, scanDigits?_append hds hrest more, rfl⟩
            · simp only [if_neg hs, Option.map_eq_some_iff] at h ⊢
              obtain ⟨⟨ds, r⟩, hds, rfl⟩ := h
              exact ⟨_, scanDigits?_append hds hrest more, rfl⟩
      · rw [if_neg hc] at h ⊢
        cases h
        rfl

/-- What is left after an exponent was there before. -/
theorem ne_nil_of_skipExponent? (h : skipExponent? cs = some rest) (hrest : rest ≠ []) :
    cs ≠ [] := by
  rintro rfl
  cases h
  exact hrest rfl

/-- What is left after a fraction was there before. -/
theorem ne_nil_of_skipFraction? (h : skipFraction? cs = some rest) (hrest : rest ≠ []) :
    cs ≠ [] := by
  rintro rfl
  cases h
  exact hrest rfl

/-- The parts of a number are scanned alike in a longer text, if something follows the last one. -/
theorem numberParts_append {ds r₁ r₂ r₃ : List Char} (hwhole : scanWhole? cs = some (ds, r₁))
    (hfraction : skipFraction? r₁ = some r₂) (hexponent : skipExponent? r₂ = some r₃)
    (hrest : r₃ ≠ []) (more : List Char) :
    scanWhole? (cs ++ more) = some (ds, r₁ ++ more) ∧
      skipFraction? (r₁ ++ more) = some (r₂ ++ more) ∧
      skipExponent? (r₂ ++ more) = some (r₃ ++ more) := by
  have hr₂ := ne_nil_of_skipExponent? hexponent hrest
  have hr₁ := ne_nil_of_skipFraction? hfraction hr₂
  exact ⟨scanWhole?_append hwhole hr₁ more, skipFraction?_append hfraction hr₂ more,
    skipExponent?_append hexponent hrest more⟩

/-- A number is scanned alike in a longer text, if something follows it. -/
theorem scanNumber?_append {j : Json} (h : scanNumber? cs = some (j, rest)) (hrest : rest ≠ [])
    (more : List Char) : scanNumber? (cs ++ more) = some (j, rest ++ more) := by
  unfold scanNumber? at h
  split at h
  · next r =>
    simp only [bind, Option.bind_eq_some_iff] at h
    obtain ⟨⟨ds, r₁⟩, hwhole, r₂, hfraction, r₃, hexponent, h⟩ := h
    cases h
    obtain ⟨hwhole', hfraction', hexponent'⟩ :=
      numberParts_append hwhole hfraction hexponent hrest more
    rw [List.cons_append, scanNumber?, hwhole']
    simp [hfraction', hexponent']
  · next hminus =>
    simp only [bind, Option.bind_eq_some_iff] at h
    obtain ⟨⟨ds, r₁⟩, hwhole, r₂, hfraction, r₃, hexponent, h⟩ := h
    have hr₃ : r₃ ≠ [] := by
      rintro rfl
      split_ifs at h with hlen
      · cases h
        exact hrest (List.length_eq_zero_iff.mp hlen.symm)
      · cases h
        exact hrest rfl
    obtain ⟨hwhole', hfraction', hexponent'⟩ :=
      numberParts_append hwhole hfraction hexponent hr₃ more
    have hminus' : ∀ r, cs ++ more ≠ '-' :: r := by
      intro r heq
      cases cs with
      | nil => cases hwhole
      | cons c cs =>
          rw [List.cons_append] at heq
          exact hminus cs (by rw [(List.cons.inj heq).1])
    rw [scanNumber?.eq_2 _ hminus', hwhole']
    simp only [Option.bind_eq_bind, Option.bind_some, hfraction', hexponent', List.length_append,
      Nat.add_right_cancel_iff]
    split_ifs at h ⊢ with hlen
    · cases h
      rfl
    · cases h
      rfl

/-- A word is skipped alike in a longer text. -/
theorem skipWord?_append {letters : List Char} (h : skipWord? letters cs = some rest)
    (more : List Char) : skipWord? letters (cs ++ more) = some (rest ++ more) := by
  unfold skipWord? at h ⊢
  split_ifs at h with hp
  cases h
  have hle := (List.isPrefixOf_iff_prefix.mp hp).length_le
  rw [if_pos, List.drop_append_of_le_length hle]
  exact List.isPrefixOf_iff_prefix.mpr
    ((List.isPrefixOf_iff_prefix.mp hp).trans (List.prefix_append cs more))

/-! ### Values -/

/-- A quoted text is read as a value alike in a longer text. -/
theorem value?_text_append {fuel : Nat} {j : Json}
    (h : value? (fuel + 1) ('"' :: cs) = some (j, rest)) (more : Nat) (tail : List Char) :
    value? (more + 1) ('"' :: cs ++ tail) = some (j, rest ++ tail) := by
  rw [value?, Option.bind_eq_bind, Option.bind_eq_some_iff] at h
  obtain ⟨⟨units, r⟩, hscan, h⟩ := h
  rw [List.cons_append, value?, scanText_append hscan]
  simp only [Option.bind_eq_bind, Option.bind_some] at h ⊢
  cases ht : textOf? units with
  | none =>
      rw [ht] at h
      cases h
      rfl
  | some s =>
      rw [ht] at h
      cases h
      rfl

/-- A word is read as a value alike in a longer text. -/
theorem word_append {letters : List Char} {word j : Json}
    (h : (skipWord? letters cs >>= fun r => pure (word, r)) = some (j, rest))
    (tail : List Char) :
    (skipWord? letters (cs ++ tail) >>= fun r => pure (word, r)) = some (j, rest ++ tail) := by
  obtain ⟨r, hword, h⟩ := Option.bind_eq_some_iff.mp h
  cases h
  rw [skipWord?_append hword]
  rfl

/-- What stands between brackets is read alike in a longer text if what is read up to the closing
bracket is. -/
theorem bracketed_append {α : Type} {close : Char} {pack : List α → Json} {j : Json}
    {read read' : List Char → Option (List α × List Char)}
    (hread : ∀ {cs rest as}, read cs = some (as, rest) →
      ∀ tail, read' (cs ++ tail) = some (as, rest ++ tail))
    (h : bracketed close pack read cs = some (j, rest)) (tail : List Char) :
    bracketed close pack read' (cs ++ tail) = some (j, rest ++ tail) := by
  cases hb : skipBlanks cs with
  | nil =>
      rw [bracketed, hb] at h
      cases h
  | cons c r =>
      have hb' := skipBlanks_append_of_eq hb tail
      by_cases hc : c = close
      · rw [bracketed, hb] at h
        obtain ⟨rfl, rfl⟩ := Prod.mk.inj (Option.some.inj ((if_pos hc).symm.trans h))
        rw [bracketed, hb']
        exact if_pos hc
      · rw [bracketed_of_ne hb hc] at h
        obtain ⟨⟨as, r'⟩, has, h⟩ := Option.map_eq_some_iff.mp h
        cases h
        rw [bracketed_of_ne hb' hc, ← List.cons_append, hread has tail]
        rfl

/-- The readers with the given number of nested calls read alike in a longer text. A number must
be followed by something; an object may be all there is. -/
structure Extends (fuel : Nat) : Prop where
  value : ∀ {cs rest : List Char} {j : Json}, value? fuel cs = some (j, rest) →
    rest ≠ [] ∨ cs.head? = some '\x7b' → ∀ {more : Nat} (_ : fuel ≤ more) (tail : List Char),
      value? more (cs ++ tail) = some (j, rest ++ tail)
  items : ∀ {cs rest : List Char} {js : List Json}, items? fuel cs = some (js, rest) →
    ∀ {more : Nat} (_ : fuel ≤ more) (tail : List Char),
      items? more (cs ++ tail) = some (js, rest ++ tail)
  members : ∀ {cs rest : List Char} {ms : List (Option String × Json)},
    members? fuel cs = some (ms, rest) →
    ∀ {more : Nat} (_ : fuel ≤ more) (tail : List Char),
      members? more (cs ++ tail) = some (ms, rest ++ tail)

namespace Extends

/-- Without nested calls nothing is read. -/
theorem zero : Extends 0 where
  value h := by
    rw [value?] at h
    cases h
  items h := by
    rw [items?] at h
    cases h
  members h := by
    rw [members?] at h
    cases h

variable {fuel : Nat}

/-- A value is read alike in a longer text if its parts are. -/
theorem value_succ (ih : Extends fuel) {cs rest : List Char} {j : Json}
    (h : value? (fuel + 1) cs = some (j, rest)) (hrest : rest ≠ [] ∨ cs.head? = some '\x7b')
    {more : Nat} (hmore : fuel ≤ more) (tail : List Char) :
    value? (more + 1) (cs ++ tail) = some (j, rest ++ tail) := by
  cases cs with
  | nil =>
      rw [value?_nil] at h
      cases h
  | cons c cs =>
      by_cases hc : c ∈ openings
      · simp only [openings, List.mem_cons, List.not_mem_nil, or_false] at hc
        rcases hc with rfl | rfl | rfl | rfl | rfl | rfl
        · exact value?_text_append h more tail
        · rw [value?_array] at h
          rw [List.cons_append, value?_array]
          exact bracketed_append (fun hread tail => ih.items hread hmore tail) h tail
        · rw [value?_object] at h
          rw [List.cons_append, value?_object]
          exact bracketed_append (fun hread tail => ih.members hread hmore tail) h tail
        all_goals
          rw [value?] at h
          rw [List.cons_append, value?, ← List.cons_append]
          exact word_append h tail
      · have hne : rest ≠ [] := by
          refine hrest.resolve_right fun hbrace => hc ?_
          obtain rfl : c = '\x7b' := Option.some.inj hbrace
          decide
        rw [value?_of_not_mem hc] at h
        rw [List.cons_append, value?_of_not_mem hc]
        exact scanNumber?_append h hne tail

/-- Items are read alike in a longer text if each of them is. -/
theorem items_succ (ih : Extends fuel) {cs rest : List Char} {js : List Json}
    (h : items? (fuel + 1) cs = some (js, rest)) {more : Nat} (hmore : fuel ≤ more)
    (tail : List Char) : items? (more + 1) (cs ++ tail) = some (js, rest ++ tail) := by
  rw [items?, Option.bind_eq_bind, Option.bind_eq_some_iff] at h
  obtain ⟨⟨j, r⟩, hvalue, h⟩ := h
  have hne : skipBlanks r ≠ [] → r ≠ [] := by
    rintro hr rfl
    exact hr rfl
  simp only at h
  split at h
  · next r' hr =>
    rw [Option.bind_eq_bind, Option.bind_eq_some_iff] at h
    obtain ⟨⟨js', r''⟩, hitems, h⟩ := h
    cases h
    have hblank : skipBlanks r' ≠ [] := by
      intro hnil
      rw [hnil, items?_nil] at hitems
      cases hitems
    have hread := ih.items hitems hmore tail
    rw [← skipBlanks_append hblank] at hread
    rw [items?, ih.value hvalue (.inl (hne (by simp [hr]))) hmore]
    simp [skipBlanks_append_of_eq hr, hread]
  · next r' hr =>
    cases h
    rw [items?, ih.value hvalue (.inl (hne (by simp [hr]))) hmore]
    simp [skipBlanks_append_of_eq hr]
  · cases h

/-- Members are read alike in a longer text if their values are. -/
theorem members_succ (ih : Extends fuel) {cs rest : List Char} {ms : List (Option String × Json)}
    (h : members? (fuel + 1) cs = some (ms, rest)) {more : Nat} (hmore : fuel ≤ more)
    (tail : List Char) : members? (more + 1) (cs ++ tail) = some (ms, rest ++ tail) := by
  unfold members? at h
  split at h
  · next r =>
    rw [Option.bind_eq_bind, Option.bind_eq_some_iff] at h
    obtain ⟨⟨units, r₁⟩, hscan, h⟩ := h
    simp only at h
    split at h
    · next r₂ hr₁ =>
      rw [Option.bind_eq_bind, Option.bind_eq_some_iff] at h
      obtain ⟨⟨j, r₃⟩, hvalue, h⟩ := h
      have hr₂ : skipBlanks r₂ ≠ [] := by
        intro hnil
        rw [hnil, value?_nil] at hvalue
        cases hvalue
      have hr₃ : skipBlanks r₃ ≠ [] → r₃ ≠ [] := by
        rintro hr rfl
        exact hr rfl
      rw [List.cons_append, members?, scanText_append hscan]
      simp only [Option.bind_eq_bind, Option.bind_some, skipBlanks_append_of_eq hr₁,
        skipBlanks_append hr₂]
      simp only at h
      split at h
      · next r₄ hr₄ =>
        rw [Option.bind_eq_bind, Option.bind_eq_some_iff] at h
        obtain ⟨⟨ms', r₅⟩, hmembers, h⟩ := h
        cases h
        have hblank : skipBlanks r₄ ≠ [] := by
          intro hnil
          rw [hnil, members?_nil] at hmembers
          cases hmembers
        have hread := ih.members hmembers hmore tail
        rw [← skipBlanks_append hblank] at hread
        rw [ih.value hvalue (.inl (hr₃ (by simp [hr₄]))) hmore]
        simp [skipBlanks_append_of_eq hr₄, hread]
      · next r₄ hr₄ =>
        cases h
        rw [ih.value hvalue (.inl (hr₃ (by simp [hr₄]))) hmore]
        simp [skipBlanks_append_of_eq hr₄]
      · cases h
    · cases h
  · cases h

/-- **Reading is not changed by what is added to a text**, nor by more nested calls. -/
theorem all (fuel : Nat) : Extends fuel := by
  induction fuel with
  | zero => exact zero
  | succ fuel ih =>
    refine ⟨?_, ?_, ?_⟩
    · intro cs rest j h hrest more hmore tail
      obtain ⟨more, rfl⟩ : ∃ n, more = n + 1 := ⟨more - 1, by omega⟩
      exact ih.value_succ h hrest (by omega) tail
    · intro cs rest js h more hmore tail
      obtain ⟨more, rfl⟩ : ∃ n, more = n + 1 := ⟨more - 1, by omega⟩
      exact ih.items_succ h (by omega) tail
    · intro cs rest ms h more hmore tail
      obtain ⟨more, rfl⟩ : ∃ n, more = n + 1 := ⟨more - 1, by omega⟩
      exact ih.members_succ h (by omega) tail

end Extends

/-! ### Texts that are cut off -/

/-- The text of an object begins with its opening brace. -/
theorem head?_render_object (members : List (String × Json)) (level : Nat) :
    ((object members).render level).head? = some '\x7b' := by
  cases members with
  | nil => rfl
  | cons m members => rfl

/-- **The text of an object is refused when its end is missing.** -/
theorem parse?_eq_none_of_cut {members : List (String × Json)} (h : (object members).Plain)
    {cut missing : List Char} (htext : (object members).pretty.toList = cut ++ missing)
    (hmissing : missing ≠ []) : parse? (String.ofList cut) = none := by
  rw [pretty, String.toList_ofList] at htext
  rw [parse?, String.toList_ofList, Option.bind_eq_bind, Option.bind_eq_none_iff]
  rintro ⟨j, rest⟩ hread
  exfalso
  cases cut with
  | nil =>
      rw [show skipBlanks [] = [] from rfl, value?_nil] at hread
      cases hread
  | cons c cut =>
      have hbrace : c = '\x7b' := by
        have hhead := head?_render_object members 0
        rw [htext] at hhead
        exact Option.some.inj hhead
      rw [hbrace, skipBlanks_cons (by decide)] at hread
      rw [hbrace] at htext
      obtain ⟨bound, hfirst, hsecond⟩ : ∃ bound, 2 * ((object members).render 0).length ≤ bound ∧
          2 * ('\x7b' :: cut).length + 2 ≤ bound :=
        ⟨_ + _, Nat.le_add_right _ _, Nat.le_add_left _ _⟩
      have hwhole := h.readsBack 0 bound [] hfirst (by simp [EndsNumber])
      have hlonger := (Extends.all _).value hread (.inr rfl) hsecond missing
      rw [List.append_nil, htext, hlonger] at hwhole
      have hrest := congrArg Prod.snd (Option.some.inj hwhole)
      exact hmissing (List.append_eq_nil_iff.mp hrest).2

end BodyCache.Json
