import Templating.Text.OsString

/-!
# Bytes and their texts

The bytes of a text decode to that text, and bytes that decode without a replacement are those of their text.
A slash is a byte of its own among any bytes: it is no part of another character, it ends a character that
breaks off, and what is on either side decodes as if it stood alone.
-/

namespace Templating

namespace OsString

/-! ### One character -/

theorem first?_encode_append (c : Char) (bytes : List UInt8) : first? (String.utf8EncodeChar c ++ bytes) = some c := by
  rw [first?, List.toByteArray_append]
  exact ByteArray.utf8DecodeChar?_utf8EncodeChar_append

theorem exists_append_of_first? {bytes : List UInt8} {c : Char} (h : first? bytes = some c) :
    ∃ rest, bytes = String.utf8EncodeChar c ++ rest := by
  have heq := ByteArray.eq_of_utf8DecodeChar?_eq_some h
  have hdata := congrArg (fun b : ByteArray => b.data.toList) heq
  exact ⟨_, by simpa using hdata⟩

theorem le_of_mem_encode {c : Char} (hc : c.utf8Size ≠ 1) {byte : UInt8} (h : byte ∈ String.utf8EncodeChar c) :
    0x80 ≤ byte := by
  have hmany : ¬ c.val.toNat ≤ 0x7f := fun hle => hc (Char.utf8Size_eq_one_iff.2 hle)
  have hhigh : ∀ n : Nat, 0x80 ≤ n → n < 256 → 0x80 ≤ UInt8.ofNat n := by
    intro n hle hlt
    rw [UInt8.le_iff_toNat_le, UInt8.toNat_ofNat', Nat.mod_eq_of_lt hlt]
    exact hle
  unfold String.utf8EncodeChar at h
  dsimp only at h
  rw [if_neg hmany] at h
  split at h
  · simp only [List.mem_cons, List.not_mem_nil, or_false] at h
    rcases h with rfl | rfl <;> exact hhigh _ (by omega) (by omega)
  · split at h
    · simp only [List.mem_cons, List.not_mem_nil, or_false] at h
      rcases h with rfl | rfl | rfl <;> exact hhigh _ (by omega) (by omega)
    · simp only [List.mem_cons, List.not_mem_nil, or_false] at h
      rcases h with rfl | rfl | rfl | rfl <;> exact hhigh _ (by omega) (by omega)

theorem decode_length_append (bytes more : List UInt8) : decode bytes.length (bytes ++ more) = decode 0 more := by
  induction bytes with
  | nil => rfl
  | cons byte bytes ih => exact ih

theorem decode_encode_append (c : Char) (bytes : List UInt8) :
    decode 0 (String.utf8EncodeChar c ++ bytes) = c :: decode 0 bytes := by
  have hlength := String.length_utf8EncodeChar c
  cases hc : String.utf8EncodeChar c with
  | nil =>
    rw [hc] at hlength
    exact absurd hlength (Nat.ne_of_lt c.utf8Size_pos)
  | cons lead tail =>
    have hfirst := first?_encode_append c bytes
    rw [hc, List.cons_append] at hfirst
    have htail : tail.length = c.utf8Size - 1 := by
      rw [← hlength, hc]
      rfl
    rw [List.cons_append, decode, hfirst]
    dsimp only
    rw [← htail, decode_length_append]

/-! ### A whole text -/

theorem decode_encode (cs : List Char) : decode 0 (cs.flatMap String.utf8EncodeChar) = cs := by
  induction cs with
  | nil => rfl
  | cons c cs ih => rw [List.flatMap_cons, decode_encode_append, ih]

theorem lossy_ofString (text : String) : (ofString text).lossy = text := by
  rw [lossy, ofString, decode_encode, String.ofList_toList]

theorem ofString_inj {a b : String} : ofString a = ofString b ↔ a = b := by
  constructor
  · intro h
    rw [← lossy_ofString a, h, lossy_ofString]
  · exact congrArg ofString

/-! ### Slashes -/

theorem brokenOff_le (lead : UInt8) (bytes : List UInt8) : brokenOff lead bytes ≤ bytes.length := by
  unfold brokenOff
  split
  · exact Nat.zero_le _
  · split
    · split
      · simp
      · split <;> simp
    · exact Nat.zero_le _

theorem isTail_slash : isTail 0x2f = false := by decide

theorem isSecond_slash (lead : UInt8) : isSecond lead 0x2f = false := by
  unfold isSecond
  simp [isTail_slash]

theorem brokenOff_append_slash (lead : UInt8) (bytes more : List UInt8) :
    brokenOff lead (bytes ++ 0x2f :: more) = brokenOff lead bytes := by
  rcases bytes with - | ⟨second, - | ⟨third, rest⟩⟩
  · simp [brokenOff, isSecond_slash]
  · simp [brokenOff, isTail_slash]
  · rfl

theorem first?_append_slash {bytes : List UInt8} (hne : bytes ≠ []) (more : List UInt8) :
    first? (bytes ++ 0x2f :: more) = first? bytes := by
  cases h : first? bytes with
  | some c =>
    obtain ⟨rest, rfl⟩ := exists_append_of_first? h
    rw [List.append_assoc, first?_encode_append]
  | none =>
    -- otherwise the slash would be a later byte of a character
    refine Option.eq_none_iff_forall_ne_some.2 fun c hc => ?_
    obtain ⟨rest, hrest⟩ := exists_append_of_first? hc
    rcases List.append_eq_append_iff.1 hrest with ⟨tail, hcode, htail⟩ | ⟨tail, hbytes, -⟩
    · cases tail with
      | nil =>
        rw [List.append_nil] at hcode
        rw [← hcode, ← List.append_nil (String.utf8EncodeChar c), first?_encode_append] at h
        cases h
      | cons byte tail =>
        obtain rfl := (List.cons.inj htail).1
        have hlength := congrArg List.length hcode
        have hpos := List.length_pos_iff.2 hne
        rw [String.length_utf8EncodeChar, List.length_append, List.length_cons] at hlength
        have hmany : c.utf8Size ≠ 1 := by omega
        have hhigh := le_of_mem_encode hmany (hcode ▸ List.mem_append_right bytes List.mem_cons_self)
        exact absurd hhigh (by decide)
    · rw [hbytes, first?_encode_append] at h
      cases h

theorem decode_append_slash {passed : Nat} {bytes : List UInt8} (h : passed ≤ bytes.length) (more : List UInt8) :
    decode passed (bytes ++ 0x2f :: more) = decode passed bytes ++ '/' :: decode 0 more := by
  induction bytes generalizing passed with
  | nil =>
    obtain rfl := Nat.le_zero.1 h
    exact decode_encode_append '/' more
  | cons byte bytes ih =>
    cases passed with
    | succ passed => exact ih (Nat.le_of_succ_le_succ h)
    | zero =>
      have hfirst := first?_append_slash (List.cons_ne_nil byte bytes) more
      rw [List.cons_append] at hfirst
      rw [List.cons_append, decode, hfirst, decode]
      cases hc : first? (byte :: bytes) with
      | some c =>
        obtain ⟨rest, hrest⟩ := exists_append_of_first? hc
        have hlength := congrArg List.length hrest
        rw [List.length_append, String.length_utf8EncodeChar, List.length_cons] at hlength
        have hpassed : c.utf8Size - 1 ≤ bytes.length := by omega
        exact congrArg (c :: ·) (ih hpassed)
      | none =>
        dsimp only
        rw [brokenOff_append_slash, ih (brokenOff_le byte bytes)]
        rfl

theorem eq_slash_of_mem_encode {c : Char} (h : 0x2f ∈ String.utf8EncodeChar c) : c = '/' := by
  by_cases hc : c.utf8Size = 1
  · rw [String.utf8EncodeChar_eq_singleton hc, List.mem_singleton] at h
    have hfirst := first?_encode_append c []
    rw [String.utf8EncodeChar_eq_singleton hc, ← h] at hfirst
    exact Option.some.inj (hfirst.symm.trans (first?_encode_append '/' []))
  · exact absurd (le_of_mem_encode hc h) (by decide)

theorem slash_mem_of_mem_ofString {text : String} (h : 0x2f ∈ (ofString text).bytes) : '/' ∈ text.toList := by
  obtain ⟨c, hc, hslash⟩ := List.mem_flatMap.1 h
  exact eq_slash_of_mem_encode hslash ▸ hc

/-! ### What a text says of the bytes -/

theorem mem_of_slash_mem_decode {passed : Nat} {bytes : List UInt8} (h : '/' ∈ decode passed bytes) :
    0x2f ∈ bytes := by
  induction bytes generalizing passed with
  | nil => cases h
  | cons byte bytes ih =>
    cases passed with
    | succ passed => exact List.mem_cons_of_mem _ (ih h)
    | zero =>
      rw [decode] at h
      cases hc : first? (byte :: bytes) with
      | some c =>
        rw [hc] at h
        rcases List.mem_cons.1 h with rfl | h
        · obtain ⟨rest, hrest⟩ := exists_append_of_first? hc
          rw [hrest]
          exact List.mem_append_left _ (by decide)
        · exact List.mem_cons_of_mem _ (ih h)
      | none =>
        rw [hc] at h
        rcases List.mem_cons.1 h with h | h
        · cases h
        · exact List.mem_cons_of_mem _ (ih h)

end OsString

end Templating
