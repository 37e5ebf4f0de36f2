import Mathlib.Data.List.Basic
import ParseLog.Event.Basic
import ParseLog.Proofs.Text.Codes
/-!
# Encoded texts can be decoded

Each encoding has a decoder that gives every text back, and the encoded text is made of the codes of
the encoding alone. The percent encodings write a text byte by byte, whatever characters the bytes
belong to: no byte of a longer character is one that stands for itself.
-/

namespace ParseLog
set_option autoImplicit false

namespace Encoding

/-! ### Bytes of characters -/

theorem utf8EncodeChar_of_lt {c : Char} (h : c.toNat < 128) :
    String.utf8EncodeChar c = [UInt8.ofNat c.toNat] :=
  if_pos (Nat.le_of_lt_succ h)

theorem le_of_mem_utf8EncodeChar {c : Char} {b : UInt8} (h : 128 ≤ c.toNat)
    (hb : b ∈ String.utf8EncodeChar c) : 128 ≤ b.toNat := by
  have hascii : ¬ c.val.toNat ≤ 127 := Nat.not_le_of_lt h
  dsimp only [String.utf8EncodeChar] at hb
  rw [if_neg hascii] at hb
  split_ifs at hb <;> simp only [List.mem_cons, List.not_mem_nil, or_false] at hb
  · rcases hb with rfl | rfl <;> rw [UInt8.toNat_ofNat'] <;> omega
  · rcases hb with rfl | rfl | rfl <;> rw [UInt8.toNat_ofNat'] <;> omega
  · rcases hb with rfl | rfl | rfl | rfl <;> rw [UInt8.toNat_ofNat'] <;> omega

/-- A byte of less than 128 is the one byte of its character. -/
theorem eq_of_mem_utf8EncodeChar {c : Char} {b : UInt8} (hb : b ∈ String.utf8EncodeChar c)
    (h : b.toNat < 128) : c = Char.ofUInt8 b := by
  by_cases hc : c.toNat < 128
  · rw [utf8EncodeChar_of_lt hc, List.mem_singleton] at hb
    apply Char.toNat_inj.mp
    rw [hb]
    change c.toNat = c.toNat % 256
    omega
  · exact absurd (le_of_mem_utf8EncodeChar (Nat.le_of_not_lt hc) hb) (by omega)

theorem lt_of_isAlphanum {c : Char} (h : c.isAlphanum = true) : c.toNat < 128 := by
  have hranges : (decide ('A'.val ≤ c.val ∧ c.val ≤ 'Z'.val) ||
      (decide ('a'.val ≤ c.val) && decide (c.val ≤ 'z'.val)) ||
      (decide ('0'.val ≤ c.val) && decide (c.val ≤ '9'.val))) = true := h
  simp only [Bool.or_eq_true, Bool.and_eq_true, decide_eq_true_eq] at hranges
  obtain ((h | h) | h) := hranges
  · exact Nat.lt_of_le_of_lt (UInt32.le_iff_toNat_le.mp h.2) (by decide)
  · exact Nat.lt_of_le_of_lt (UInt32.le_iff_toNat_le.mp h.2) (by decide)
  · exact Nat.lt_of_le_of_lt (UInt32.le_iff_toNat_le.mp h.2) (by decide)

theorem lt_of_isUnreserved {c : Char} (h : isUnreserved c = true) : c.toNat < 128 := by
  simp only [isUnreserved, Bool.or_eq_true, beq_iff_eq] at h
  obtain (((h | rfl) | rfl) | rfl) | rfl := h
  · exact lt_of_isAlphanum h
  all_goals decide

theorem utf8EncodeChar_ofUInt8 {b : UInt8} (h : (Char.ofUInt8 b).toNat < 128) :
    String.utf8EncodeChar (Char.ofUInt8 b) = [b] := by
  rw [utf8EncodeChar_of_lt h]
  exact congrArg (fun b => [b]) (UInt8.ofNat_toNat)

/-! ### Percent encoding byte by byte -/

/-- The UTF-8 form of a text. -/
def bytes (s : String) : List UInt8 := s.toList.flatMap String.utf8EncodeChar

/-- How one byte is written. -/
def percentByte (plusForSpace : Bool) (b : UInt8) : List Char :=
  if isUnreserved (Char.ofUInt8 b) then [Char.ofUInt8 b]
  else if plusForSpace ∧ b = 32 then ['+']
  else percentTriplet b

/-- Only a reserved character has a byte that is written as a triplet. -/
theorem percentByte_of_reserved {c : Char} {b : UInt8} (h : isUnreserved c = false)
    (hb : b ∈ String.utf8EncodeChar c) {plusForSpace : Bool} (hspace : plusForSpace = true → c ≠ ' ') :
    percentByte plusForSpace b = percentTriplet b := by
  have hreserved : ¬ isUnreserved (Char.ofUInt8 b) = true := fun hun => by
    have hlt := lt_of_isUnreserved hun
    rw [← eq_of_mem_utf8EncodeChar hb hlt, h] at hun
    exact Bool.false_ne_true hun
  have hplus : ¬ (plusForSpace = true ∧ b = 32) := fun ⟨hplus, h32⟩ => by
    refine hspace hplus ?_
    rw [eq_of_mem_utf8EncodeChar hb (by rw [h32]; decide), h32]
    rfl
  rw [percentByte, if_neg hreserved, if_neg hplus]

theorem percentChar_eq (c : Char) {plusForSpace : Bool} (hspace : plusForSpace = true → c ≠ ' ') :
    percentChar c = (String.utf8EncodeChar c).flatMap (percentByte plusForSpace) := by
  by_cases h : isUnreserved c = true
  · have hlt := lt_of_isUnreserved h
    have hbyte : Char.ofUInt8 (UInt8.ofNat c.toNat) = c :=
      (eq_of_mem_utf8EncodeChar (by rw [utf8EncodeChar_of_lt hlt]; exact List.mem_singleton_self _)
        (by rw [UInt8.toNat_ofNat']; omega)).symm
    rw [percentChar, if_pos h, utf8EncodeChar_of_lt hlt, List.flatMap_singleton, percentByte, hbyte,
      if_pos h]
  · rw [percentChar, if_neg h]
    refine List.flatMap_congr fun b hb => ?_
    rw [percentByte_of_reserved (Bool.eq_false_iff.mpr h) hb hspace]

theorem toList_encode_percent (s : String) :
    (percent.encode s).toList = (bytes s).flatMap (percentByte false) := by
  rw [toList_encode, bytes, List.flatMap_assoc]
  exact List.flatMap_congr fun c _ => percentChar_eq c (by simp)

theorem toList_encode_percentPlus (s : String) :
    (percentPlus.encode s).toList = (bytes s).flatMap (percentByte true) := by
  rw [toList_encode, bytes, List.flatMap_assoc]
  refine List.flatMap_congr fun c _ => ?_
  by_cases hc : c = ' '
  · subst hc
    decide
  · rw [encodeChar, if_neg hc]
    exact percentChar_eq c fun _ => hc

/-! ### Decoders -/

/-- The bytes that a percent-encoded text stands for. A character that begins no triplet stands for its
own bytes. -/
def percentBytes? (plusForSpace : Bool) : List Char → Option (List UInt8)
  | [] => some []
  | '%' :: high :: low :: rest => do
    let h ← Text.hexValue? high
    let l ← Text.hexValue? low
    return UInt8.ofNat (16 * h + l) :: (← percentBytes? plusForSpace rest)
  | c :: rest => do
    let later ← percentBytes? plusForSpace rest
    if c = '%' then none
    else if plusForSpace ∧ c = '+' then return 32 :: later
    else return String.utf8EncodeChar c ++ later

/-- Replaces each character reference by its character and leaves all else as it is. -/
def dereference : List Char → List Char
  | [] => []
  | '&' :: 'a' :: 'm' :: 'p' :: ';' :: rest => '&' :: dereference rest
  | '&' :: 'l' :: 't' :: ';' :: rest => '<' :: dereference rest
  | '&' :: 'g' :: 't' :: ';' :: rest => '>' :: dereference rest
  | '&' :: 'q' :: 'u' :: 'o' :: 't' :: ';' :: rest => '"' :: dereference rest
  | '&' :: '#' :: '3' :: '9' :: ';' :: rest => '\'' :: dereference rest
  | '&' :: '#' :: '0' :: ';' :: rest => '\x00' :: dereference rest
  | c :: rest => c :: dereference rest

/-- The text that an encoded text stands for. -/
def decode? : Encoding → String → Option String
  | html, t => some (String.ofList (dereference t.toList))
  | percent, t => do String.fromUTF8? (← percentBytes? false t.toList).toByteArray
  | percentPlus, t => do String.fromUTF8? (← percentBytes? true t.toList).toByteArray

theorem fromUTF8?_bytes (s : String) : String.fromUTF8? (bytes s).toByteArray = some s := by
  have hbytes : (bytes s).toByteArray = s.toByteArray := s.utf8Encode_toList
  rw [hbytes]
  exact dif_pos s.isValidUTF8

theorem hexValue?_hexDigit {n : Nat} (h : n < 16) : Text.hexValue? (hexDigit n) = some n := by
  revert n
  decide

theorem percentBytes?_percentTriplet (plusForSpace : Bool) (b : UInt8) (rest : List Char) :
    percentBytes? plusForSpace (percentTriplet b ++ rest) =
      (percentBytes? plusForSpace rest).map (b :: ·) := by
  have hb := b.toNat_lt
  have hnibbles : UInt8.ofNat (16 * (b.toNat / 16) + b.toNat % 16) = b := by
    rw [Nat.div_add_mod, UInt8.ofNat_toNat]
  rw [percentTriplet, List.cons_append, List.cons_append, List.cons_append, List.nil_append,
    percentBytes?, hexValue?_hexDigit (by omega), hexValue?_hexDigit (by omega)]
  cases percentBytes? plusForSpace rest with
  | none => rfl
  | some later => exact congrArg (fun b => some (b :: later)) hnibbles

theorem percentBytes?_percentByte (plusForSpace : Bool) (b : UInt8) (rest : List Char) :
    percentBytes? plusForSpace (percentByte plusForSpace b ++ rest) =
      (percentBytes? plusForSpace rest).map (b :: ·) := by
  rw [percentByte]
  split_ifs with hun hplus
  · have hpercent : Char.ofUInt8 b ≠ '%' := fun h => absurd (h ▸ hun) (by decide)
    have hnotPlus : Char.ofUInt8 b ≠ '+' := fun h => absurd (h ▸ hun) (by decide)
    rw [List.singleton_append, percentBytes?]
    · cases percentBytes? plusForSpace rest with
      | none => rfl
      | some later => simp [hpercent, hnotPlus, utf8EncodeChar_ofUInt8 (lt_of_isUnreserved hun)]
    · simp [hpercent]
  · obtain ⟨rfl, rfl⟩ := hplus
    rw [List.singleton_append, percentBytes?]
    · cases percentBytes? true rest <;> rfl
    · simp
  · exact percentBytes?_percentTriplet plusForSpace b rest

theorem percentBytes?_flatMap (plusForSpace : Bool) (bs : List UInt8) :
    percentBytes? plusForSpace (bs.flatMap (percentByte plusForSpace)) = some bs := by
  induction bs with
  | nil => rfl
  | cons b bs ih => rw [List.flatMap_cons, percentBytes?_percentByte, ih, Option.map_some]

theorem dereference_of_ne {c : Char} (h : c ≠ '&') (rest : List Char) :
    dereference (c :: rest) = c :: dereference rest := by
  rw [dereference] <;> simp [h]

theorem dereference_characterReference (c : Char) (rest : List Char) :
    dereference (characterReference c ++ rest) = c :: dereference rest := by
  unfold characterReference
  split_ifs with h₁ h₂ h₃ h₄ h₅ h₆
  · rw [h₁]; rfl
  · rw [h₂]; rfl
  · rw [h₃]; rfl
  · rw [h₄]; rfl
  · rw [h₅]; rfl
  · rw [h₆]; rfl
  · exact dereference_of_ne h₁ rest

theorem dereference_flatMap (cs : List Char) :
    dereference (cs.flatMap characterReference) = cs := by
  induction cs with
  | nil => rfl
  | cons c cs ih => rw [List.flatMap_cons, dereference_characterReference, ih]

theorem decode?_encode (e : Encoding) (s : String) : e.decode? (e.encode s) = some s := by
  cases e with
  | html =>
    have htext : (html.encode s).toList = s.toList.flatMap characterReference := toList_encode html s
    rw [decode?, htext, dereference_flatMap, String.ofList_toList]
  | percent =>
    rw [decode?, toList_encode_percent, percentBytes?_flatMap]
    exact fromUTF8?_bytes s
  | percentPlus =>
    rw [decode?, toList_encode_percentPlus, percentBytes?_flatMap]
    exact fromUTF8?_bytes s

/-! ### What encoded texts are made of -/

def references : List (List Char) :=
  [['&', 'a', 'm', 'p', ';'], ['&', 'l', 't', ';'], ['&', 'g', 't', ';'],
    ['&', 'q', 'u', 'o', 't', ';'], ['&', '#', '3', '9', ';'], ['&', '#', '0', ';']]

def upperDigits : List Char := "0123456789ABCDEF".toList

/-- The ways to write a byte, with a plus for a space or without. -/
inductive IsPercentCode (plusForSpace : Bool) : List Char → Prop where
  | unreserved (c : Char) (hc : isUnreserved c = true) (hascii : c.toNat < 128) :
    IsPercentCode plusForSpace [c]
  | triplet (high low : Char) (hhigh : high ∈ upperDigits) (hlow : low ∈ upperDigits) :
    IsPercentCode plusForSpace ['%', high, low]
  | plus (hplus : plusForSpace = true) : IsPercentCode plusForSpace ['+']

/-- Whether a text is made of the codes of the encoding. In HTML no reserved character stands for
itself, and each ampersand begins a character reference. -/
def IsCoded : Encoding → List Char → Prop
  | html, t => (∀ c ∈ ['<', '>', '"', '\'', '\x00'], c ∉ t) ∧
    ∀ before after, t = before ++ '&' :: after → ∃ r ∈ references, r <+: '&' :: after
  | percent, t => ∃ codes : List (List Char), t = codes.flatten ∧
    ∀ code ∈ codes, IsPercentCode false code
  | percentPlus, t => ∃ codes : List (List Char), t = codes.flatten ∧
    ∀ code ∈ codes, IsPercentCode true code

theorem characterReference_cases (c : Char) :
    characterReference c ∈ references ∨
      characterReference c = [c] ∧ c ∉ ['&', '<', '>', '"', '\'', '\x00'] := by
  unfold characterReference
  split_ifs with h₁ h₂ h₃ h₄ h₅ h₆
  case neg => exact .inr ⟨rfl, by simp [*]⟩
  all_goals exact .inl (by decide)

theorem notMem_characterReference {c d : Char} (hd : d ∈ ['<', '>', '"', '\'', '\x00']) :
    d ∉ characterReference c := by
  obtain href | ⟨hself, hc⟩ := characterReference_cases c
  · have hnone : ∀ r ∈ references,
        ['<', '>', '"', '\'', '\x00'].all (fun d => d ∉ r) = true := by decide
    exact of_decide_eq_true (List.all_eq_true.mp (hnone _ href) d hd)
  · rw [hself, List.mem_singleton]
    rintro rfl
    exact hc (List.mem_cons_of_mem _ hd)

/-- Only references have an ampersand, at their front. -/
theorem mem_references_of_ampersand {c : Char} {front back : List Char}
    (h : characterReference c = front ++ '&' :: back) : '&' :: back ∈ references := by
  obtain href | ⟨hself, hc⟩ := characterReference_cases c
  · cases front with
    | nil =>
      rw [List.nil_append] at h
      exact h ▸ href
    | cons d front =>
      have htail : ∀ r ∈ references, '&' ∉ r.tail := by decide
      exact absurd (by simp [h]) (htail _ href)
  · have hmem : '&' ∈ characterReference c := by simp [h]
    rw [hself, List.mem_singleton] at hmem
    exact absurd (hmem ▸ List.mem_cons_self) hc

theorem isCoded_html (s : String) : html.IsCoded (html.encode s).toList := by
  rw [toList_encode]
  refine ⟨fun d hd hmem => ?_, fun before after hsplit => ?_⟩
  · obtain ⟨c, -, hc⟩ := List.mem_flatMap.mp hmem
    exact notMem_characterReference hd hc
  · obtain ⟨earlier, c, later, front, back, -, hc, -, rfl⟩ := Text.exists_code_of_flatMap_eq hsplit
    exact ⟨_, mem_references_of_ampersand hc, later.flatMap html.encodeChar, rfl⟩

theorem isPercentCode_percentByte (plusForSpace : Bool) (b : UInt8) :
    IsPercentCode plusForSpace (percentByte plusForSpace b) := by
  have hdigit : ∀ n < 16, hexDigit n ∈ upperDigits := by decide
  have hb := b.toNat_lt
  rw [percentByte]
  split_ifs with hun hplus
  · exact .unreserved _ hun (lt_of_isUnreserved hun)
  · exact .plus hplus.1
  · exact .triplet _ _ (hdigit _ (by omega)) (hdigit _ (by omega))

theorem exists_codes_of_flatMap (plusForSpace : Bool) (bs : List UInt8) :
    ∃ codes : List (List Char), bs.flatMap (percentByte plusForSpace) = codes.flatten ∧
      ∀ code ∈ codes, IsPercentCode plusForSpace code := by
  refine ⟨bs.map (percentByte plusForSpace), List.flatMap_def, fun code hcode => ?_⟩
  obtain ⟨b, -, rfl⟩ := List.mem_map.mp hcode
  exact isPercentCode_percentByte plusForSpace b

theorem isCoded_encode (e : Encoding) (s : String) : e.IsCoded (e.encode s).toList := by
  cases e with
  | html => exact isCoded_html s
  | percent => exact toList_encode_percent s ▸ exists_codes_of_flatMap false (bytes s)
  | percentPlus => exact toList_encode_percentPlus s ▸ exists_codes_of_flatMap true (bytes s)

/-- What is encoded can be decoded, so that no two texts are encoded alike. Encoding goes part by part,
also where chunks of encoded text coalesce, and leaves nothing but the codes of the encoding. -/
theorem encode_decodable (e : Encoding) :
    (∀ s, e.decode? (e.encode s) = some s) ∧ Function.Injective e.encode ∧
      (∀ s t, e.encode (s ++ t) = e.encode s ++ e.encode t) ∧
      (∀ s t, Chunk.encoded e s ++ Chunk.encoded e t = Chunk.encoded e (s ++ t)) ∧
      ∀ s, e.IsCoded (e.encode s).toList := by
  refine ⟨e.decode?_encode, fun s t heq => ?_, e.encode_append, fun s t => ?_, e.isCoded_encode⟩
  · have hs := e.decode?_encode s
    rw [heq, e.decode?_encode t] at hs
    exact (Option.some.inj hs).symm
  · exact congrArg (Chunk.mk (s ++ t)) (e.encode_append s t).symm

end Encoding

end ParseLog
