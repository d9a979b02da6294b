import BodyCache.Proofs.Container.Cut
import BodyCache.Proofs.SymbolMap.File

/-!
# Map Files That Are Cut Off

Writing a file may fail on the way and leave its beginning only. No such rest of a snapshot is
mistaken for a whole: like a container file, a map file that lacks its end is refused, so what is
read from the beginning of such a file is the whole of it. Nor is a map file, whole or not, ever
taken for a container file, because it does not have its magic bytes.

## Main results

* `Utf8.exists_of_encode_eq_append`: the text at the beginning of the bytes of another text is the
  beginning of that text.
* `SymbolMap.of_ofFile_cut`: only whole map files are read.
* `SymbolMap.ofFile_cut_ne_ok`: a map file is not taken for a container file.
-/

namespace BodyCache

/-! ### Texts -/

namespace Utf8

/-- The bytes of two texts in a row are those of both. -/
theorem encode_append (s t : String) : encode (s ++ t) = encode s ++ encode t := by
  rw [encode, String.toByteArray_append, ByteArray.data_append, Array.toList_append]
  rfl

/-- If the bytes of some characters begin with those of others, so do the characters. -/
theorem exists_of_utf8Encode_eq_append {cs text : List Char} {more : ByteArray}
    (h : text.utf8Encode = cs.utf8Encode ++ more) :
    ∃ rest, text = cs ++ rest ∧ more = rest.utf8Encode := by
  induction cs generalizing text with
  | nil =>
      rw [List.utf8Encode_nil, ByteArray.empty_append] at h
      exact ⟨text, rfl, h.symm⟩
  | cons c cs ih =>
      rw [List.utf8Encode_cons, ByteArray.append_assoc] at h
      have hfirst : text.utf8Encode.utf8DecodeChar? 0 = some c := by
        rw [h, List.utf8DecodeChar?_utf8Encode_singleton_append]
      cases text with
      | nil => cases hfirst
      | cons d text =>
          rw [List.utf8Encode_cons] at h hfirst
          rw [List.utf8DecodeChar?_utf8Encode_singleton_append] at hfirst
          obtain rfl : d = c := Option.some.inj hfirst
          obtain ⟨rest, rfl, hmore⟩ := ih ((ByteArray.append_right_inj _).mp h)
          exact ⟨rest, rfl, hmore⟩

/-- **If the bytes of a text begin with those of another one, so does the text.** -/
theorem exists_of_encode_eq_append {s text : String} {more : Bytes}
    (h : encode text = encode s ++ more) :
    ∃ rest, text.toList = s.toList ++ rest ∧ more = encode (String.ofList rest) := by
  have hbytes : text.toList.utf8Encode = s.toList.utf8Encode ++ ⟨more.toArray⟩ := by
    rw [String.utf8Encode_toList, String.utf8Encode_toList]
    apply ByteArray.ext
    apply Array.toList_inj.mp
    rw [ByteArray.data_append, Array.toList_append]
    exact h
  obtain ⟨rest, htext, hmore⟩ := exists_of_utf8Encode_eq_append hbytes
  refine ⟨rest, htext, ?_⟩
  rw [encode, String.toByteArray_ofList, ← hmore]

end Utf8

/-! ### Map files -/

namespace SymbolMap

/-- **Only whole map files are read.** What is read from the beginning of the file that was written
for a map is that map, and nothing is missing. -/
theorem of_ofFile_cut {m m' : SymbolMap} {cut missing : Bytes}
    (hfile : m.toFile = cut ++ missing) (h : ofFile cut = .ok m') : m' = m ∧ missing = [] := by
  rw [ofFile] at h
  cases hdecode : Utf8.decode? cut with
  | none =>
      rw [hdecode] at h
      cases h
  | some text =>
      simp only [hdecode] at h
      have hcut : Utf8.encode text = cut := Utf8.encode_of_decode? hdecode
      rw [toFile, ← hcut] at hfile
      obtain ⟨rest, htext, hmissing⟩ := Utf8.exists_of_encode_eq_append hfile
      by_cases hrest : rest = []
      · subst hrest
        have hsame : text = m.toText := by
          apply String.toList_injective
          rw [htext, List.append_nil]
        rw [hsame, ofText?_toText] at h
        simp only at h
        split at h
        · cases h
          exact ⟨rfl, hmissing⟩
        · cases h
      · have hrefused := Json.parse?_eq_none_of_cut m.plain_toJson htext hrest
        rw [String.ofList_toList] at hrefused
        rw [ofText?, hrefused] at h
        cases h

/-- A map file begins with an opening brace and the name of the first field. -/
theorem exists_toFile_eq (m : SymbolMap) :
    ∃ rest, m.toFile = Utf8.encode "\x7b\n  \"for" ++ rest := by
  obtain ⟨rest, hfront⟩ : ∃ rest, "\x7b\n  \"for".toList ++ rest = m.toJson.render 0 :=
    ⟨_, List.take_append_drop 8 (m.toJson.render 0)⟩
  refine ⟨Utf8.encode (String.ofList rest), ?_⟩
  rw [toFile, toText, Json.pretty, ← hfront, String.ofList_append, Utf8.encode_append,
    String.ofList_toList]

/-- **A map file is not taken for a container file**, nor is the beginning of one. -/
theorem ofFile_cut_ne_ok {m : SymbolMap} {cut missing : Bytes} {c : Container}
    (hfile : m.toFile = cut ++ missing) : Container.ofFile cut ≠ .ok c := by
  intro h
  obtain ⟨header, _, _, -, -, hheader, hmagic, -⟩ := Container.exists_of_ofFileWith h
  obtain ⟨rest, hfront⟩ := m.exists_toFile_eq
  -- The magic bytes begin with the fifth byte, and so does the name of the first field.
  have hfifth : cut[4]? = some 0x44 := by
    have hfour := (ContainerHeader.magic_of_decode hheader).symm.trans hmagic
    have hfirst := congrArg (·[0]?) hfour
    simp only [List.getElem?_take, List.getElem?_drop] at hfirst
    split at hfirst
    · split at hfirst
      · exact hfirst
      · cases hfirst
    · cases hfirst
  have hquote : (cut ++ missing)[4]? = some 0x22 := by
    rw [← hfile, hfront]
    rfl
  have hcut : 4 < cut.length := (List.getElem?_eq_some_iff.mp hfifth).1
  rw [List.getElem?_append_left hcut, hfifth] at hquote
  exact absurd (Option.some.inj hquote) (by decide)

end SymbolMap

end BodyCache
