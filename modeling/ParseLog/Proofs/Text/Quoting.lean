import Mathlib.Algebra.Ring.Parity
import Mathlib.Data.List.DropRight
import ParseLog.Proofs.Text.Codes
import ParseLog.Text.Writer
/-!
# Quoted texts can be read back

Copying stretches between escapes gives the same as escaping character by character. A reader takes a
quoted text off the front of any text, so a quoted text is never the beginning of another one. The
closing quote is the first one that an even number of backslashes stands before.
-/

namespace ParseLog.Text
set_option autoImplicit false

/-! ### The writer -/

namespace Writer
variable {s done plain after : String} {c : Char}

/-- The offset of the stretch to copy is where what is done ends. -/
theorem copy?_eq_some (written : String) (hs : s = done ++ (plain ++ after)) :
    copy? s ⟨written, done.utf8ByteSize⟩ (done ++ plain).utf8ByteSize = some (written ++ plain) := by
  rw [copy?, hs, slice?_append]
  rfl

theorem step?_of_plain (hc : escapeChar c = [c]) (w : Writer) (offset : Nat) :
    step? s w (offset, c) = some w := if_pos hc

theorem step?_of_escape (written : String) (hc : escapeChar c ≠ [c])
    (hs : s = done ++ (plain ++ after)) :
    step? s ⟨written, done.utf8ByteSize⟩ ((done ++ plain).utf8ByteSize, c) =
      some ⟨written ++ plain ++ String.ofList (escapeChar c),
        (done ++ plain).utf8ByteSize + c.utf8Size⟩ := by
  rw [step?, if_neg hc, copy?_eq_some written hs]
  rfl

/-- The rest of the loop and the last copy write the stretch under way and the characters to come. -/
theorem run_eq_some (cs : List Char) (written done plain : String)
    (hs : s = done ++ (plain ++ String.ofList cs)) :
    ((withOffsets (done ++ plain).utf8ByteSize cs).foldlM (step? s)
        ⟨written, done.utf8ByteSize⟩).bind (copy? s · s.utf8ByteSize) =
      some (written ++ plain ++ String.ofList (cs.flatMap escapeChar)) := by
  induction cs generalizing written done plain with
  | nil =>
    have hend : s.utf8ByteSize = (done ++ plain).utf8ByteSize := by rw [hs]; simp
    have hcopy := copy?_eq_some written hs
    rw [← hend] at hcopy
    simpa [withOffsets] using hcopy
  | cons c cs ih =>
    have hnext : (done ++ plain).utf8ByteSize + c.utf8Size =
        (done ++ plain.push c).utf8ByteSize := by
      simp [Nat.add_assoc]
    have htext : s = done ++ (plain.push c ++ String.ofList cs) := by
      rw [hs]
      exact String.toList_injective (by simp)
    rw [withOffsets, List.foldlM_cons]
    by_cases hc : escapeChar c = [c]
    · have hrun := ih written done (plain.push c) htext
      rw [step?_of_plain hc, hnext]
      exact hrun.trans (congrArg some (String.toList_injective (by simp [hc])))
    · -- all up to here is done, and the next stretch begins empty
      have hdone : s = done ++ plain.push c ++ ("" ++ String.ofList cs) := by
        rw [htext]
        exact String.toList_injective (by simp)
      have hrun := ih (written ++ plain ++ String.ofList (escapeChar c)) _ "" hdone
      rw [String.append_empty] at hrun
      rw [step?_of_escape written hc hs, hnext]
      exact hrun.trans (congrArg some (String.toList_injective (by simp)))

/-- Copied in stretches, a text comes out as it does character by character. -/
theorem quote?_eq_some (s : String) : quote? s = some (quote s) := by
  have hrun := run_eq_some s.toList "\"" "" "" (s := s) (by simp)
  have hquote : quote? s = (((withOffsets 0 s.toList).foldlM (step? s) ⟨"\"", 0⟩).bind
      (copy? s · s.utf8ByteSize)).map (· ++ "\"") := by
    simp [quote?, Option.map_eq_bind, Option.bind_assoc]
  rw [hquote]
  refine (congrArg (Option.map (· ++ "\"")) hrun).trans (congrArg some ?_)
  exact String.toList_injective (by simp [toList_quote])

example : quote? "\u2028\"é\\" = some "\"\\u2028\\\"é\\\\\"" := by decide +kernel

end Writer

/-! ### Escapes -/

/-- The character that a backslash and one more character stand for. -/
def letterEscape? : Char → Option Char
  | 'b' => some '\x08'
  | 't' => some '\t'
  | 'n' => some '\n'
  | 'f' => some '\x0c'
  | 'r' => some '\r'
  | '"' => some '"'
  | '\\' => some '\\'
  | _ => none

/-- The character whose code point has these hexadecimal digits. -/
def codePoint? (digits : List Char) : Option Char := do
  let n ← digits.foldlM (fun n d => (hexValue? d).map (16 * n + ·)) 0
  if n.isValidChar then some (Char.ofNat n) else none

/-- The ways to write a character between quotes. -/
inductive IsWritten (c : Char) : List Char → Prop where
  | plain (hquote : c ≠ '"') (hslash : c ≠ '\\') (hline : c ∉ ['\n', '\r', '\x00']) :
    IsWritten c [c]
  | letter (e : Char) (hu : e ≠ 'u') (he : letterEscape? e = some c) : IsWritten c ['\\', e]
  | codePoint (h₃ h₂ h₁ h₀ : Char) (hc : codePoint? [h₃, h₂, h₁, h₀] = some c)
    (hdigits : [h₃, h₂, h₁, h₀].all Char.isAlphanum = true) :
    IsWritten c ['\\', 'u', h₃, h₂, h₁, h₀]

theorem isWritten_escapeChar (c : Char) : IsWritten c (escapeChar c) := by
  by_cases h₀ : c = '\x00'
  · exact h₀ ▸ .codePoint '0' '0' '0' '0' (by decide) rfl
  by_cases hb : c = '\x08'
  · exact hb ▸ .letter 'b' (by decide) rfl
  by_cases ht : c = '\t'
  · exact ht ▸ .letter 't' (by decide) rfl
  by_cases hn : c = '\n'
  · exact hn ▸ .letter 'n' (by decide) rfl
  by_cases hf : c = '\x0c'
  · exact hf ▸ .letter 'f' (by decide) rfl
  by_cases hr : c = '\r'
  · exact hr ▸ .letter 'r' (by decide) rfl
  by_cases hquote : c = '"'
  · exact hquote ▸ .letter '"' (by decide) rfl
  by_cases hslash : c = '\\'
  · exact hslash ▸ .letter '\\' (by decide) rfl
  by_cases hleft : c = '\u201C'
  · exact hleft ▸ .codePoint '2' '0' '1' 'C' (by decide) rfl
  by_cases hright : c = '\u201D'
  · exact hright ▸ .codePoint '2' '0' '1' 'D' (by decide) rfl
  by_cases hlines : c = '\u2028'
  · exact hlines ▸ .codePoint '2' '0' '2' '8' (by decide) rfl
  by_cases hparas : c = '\u2029'
  · exact hparas ▸ .codePoint '2' '0' '2' '9' (by decide) rfl
  have hplain : escapeChar c = [c] := by
    simp only [escapeChar, *, if_false]
  rw [hplain]
  exact .plain hquote hslash (by simp [*])

/-! ### The reader -/

/-- Puts a character in front of what was read, which stands before what follows it. -/
def putBefore (c : Char) (read : List Char × List Char) : List Char × List Char :=
  (c :: read.1, read.2)

/-- What stands before the closing quote, with each escape replaced, and what follows that quote. -/
def readQuoted? : List Char → Option (List Char × List Char)
  | [] => none
  | '"' :: rest => some ([], rest)
  | '\\' :: 'u' :: h₃ :: h₂ :: h₁ :: h₀ :: rest => do
    return putBefore (← codePoint? [h₃, h₂, h₁, h₀]) (← readQuoted? rest)
  | '\\' :: e :: rest => do
    return putBefore (← letterEscape? e) (← readQuoted? rest)
  | '\\' :: [] => none
  | c :: rest => (readQuoted? rest).map (putBefore c)

/-- Takes a quoted text off the front. -/
def unquote? : List Char → Option (List Char × List Char)
  | '"' :: rest => readQuoted? rest
  | _ => none

section
variable {c : Char} {rest : List Char}

theorem readQuoted?_codePoint {h₃ h₂ h₁ h₀ : Char} (h : codePoint? [h₃, h₂, h₁, h₀] = some c) :
    readQuoted? ('\\' :: 'u' :: h₃ :: h₂ :: h₁ :: h₀ :: rest) =
      (readQuoted? rest).map (putBefore c) := by
  rw [readQuoted?, h]
  cases readQuoted? rest <;> rfl

theorem readQuoted?_letter {e : Char} (hu : e ≠ 'u') (h : letterEscape? e = some c) :
    readQuoted? ('\\' :: e :: rest) = (readQuoted? rest).map (putBefore c) := by
  rw [readQuoted?, h]
  · cases readQuoted? rest <;> rfl
  · intro _ _ _ _ _ he
    exact absurd he hu

theorem readQuoted?_plain (hquote : c ≠ '"') (hslash : c ≠ '\\') :
    readQuoted? (c :: rest) = (readQuoted? rest).map (putBefore c) := by
  rw [readQuoted?] <;> simp [hquote, hslash]

end

/-- However a character is written between quotes, it is read back. -/
theorem readQuoted?_of_isWritten {c : Char} {written : List Char} (h : IsWritten c written)
    (rest : List Char) : readQuoted? (written ++ rest) = (readQuoted? rest).map (putBefore c) := by
  cases h with
  | plain hquote hslash hline => exact readQuoted?_plain hquote hslash
  | letter e hu he => exact readQuoted?_letter hu he
  | codePoint h₃ h₂ h₁ h₀ hc hdigits => exact readQuoted?_codePoint hc

theorem readQuoted?_flatMap_escapeChar (cs rest : List Char) :
    readQuoted? (cs.flatMap escapeChar ++ '"' :: rest) = some (cs, rest) := by
  induction cs with
  | nil => simp [readQuoted?]
  | cons c cs ih =>
    rw [List.flatMap_cons, List.append_assoc,
      readQuoted?_of_isWritten (isWritten_escapeChar c), ih]
    rfl

/-- A quoted text can be cut off the front of any text that it begins. -/
theorem unquote?_quote (s : String) (rest : List Char) :
    unquote? ((quote s).toList ++ rest) = some (s.toList, rest) := by
  rw [toList_quote]
  simpa [unquote?] using readQuoted?_flatMap_escapeChar s.toList rest

theorem eq_of_quote_prefix {s t : String} (h : (quote s).toList <+: (quote t).toList) : s = t := by
  obtain ⟨rest, hrest⟩ := h
  have hs := unquote?_quote s rest
  have ht := unquote?_quote t []
  rw [hrest, ← List.append_nil (quote t).toList, ht] at hs
  exact String.toList_injective (congrArg Prod.fst (Option.some.inj hs)).symm

/-! ### Quotes, backslashes and lines -/

/-- How many backslashes a text ends in. -/
def backslashes (cs : List Char) : Nat := (cs.rtakeWhile (· == '\\')).length

theorem backslashes_concat_slash (cs : List Char) :
    backslashes (cs ++ ['\\']) = backslashes cs + 1 := by
  simp [backslashes]

theorem backslashes_concat_of_ne (cs : List Char) {c : Char} (h : c ≠ '\\') :
    backslashes (cs ++ [c]) = 0 := by
  simp [backslashes, h]

namespace IsWritten
variable {c : Char} {written : List Char} (h : IsWritten c written)
include h

/-- Only the backslash is written with a backslash at the end, and then with two. -/
theorem even_backslashes_append {cs : List Char} (heven : Even (backslashes cs)) :
    Even (backslashes (cs ++ written)) := by
  cases h with
  | plain hquote hslash hline =>
    rw [backslashes_concat_of_ne cs hslash]
    exact Even.zero
  | letter e hu he =>
    rw [List.append_cons]
    by_cases hslash : e = '\\'
    · rw [hslash, backslashes_concat_slash, backslashes_concat_slash, add_assoc]
      exact heven.add even_two
    · rw [backslashes_concat_of_ne _ hslash]
      exact Even.zero
  | codePoint h₃ h₂ h₁ h₀ hc hdigits =>
    have hslash : h₀ ≠ '\\' := fun heq =>
      absurd (List.all_eq_true.mp hdigits h₀ (by simp)) (heq ▸ by decide)
    have hlast : cs ++ ['\\', 'u', h₃, h₂, h₁, h₀] = (cs ++ ['\\', 'u', h₃, h₂, h₁]) ++ [h₀] := by
      simp
    rw [hlast, backslashes_concat_of_ne _ hslash]
    exact Even.zero

/-- A quote is written with one backslash in front of it, and nothing else with a quote. -/
theorem front_eq_of_quote {front back : List Char} (hsplit : written = front ++ '"' :: back) :
    front = ['\\'] := by
  have hmem : '"' ∈ written := by simp [hsplit]
  cases h with
  | plain hquote hslash hline =>
    exact absurd (List.mem_singleton.mp hmem).symm hquote
  | letter e hu he =>
    cases front with
    | nil => simp at hsplit
    | cons a front =>
      obtain ⟨rfl, htail⟩ := List.cons.inj hsplit
      obtain ⟨rfl, -⟩ := List.append_eq_singleton_iff.mp htail.symm |>.resolve_right (by simp)
      rfl
  | codePoint h₃ h₂ h₁ h₀ hc hdigits =>
    have hdigit : '"' ∈ [h₃, h₂, h₁, h₀] := by simpa using hmem
    exact absurd (List.all_eq_true.mp hdigits _ hdigit) (by decide)

theorem notMem_of_line {d : Char} (hd : d ∈ ['\n', '\r', '\x00']) : d ∉ written := by
  have hother : letterEscape? d = none ∧ d.isAlphanum = false ∧ d ≠ '\\' ∧ d ≠ 'u' := by
    simp only [List.mem_cons, List.not_mem_nil, or_false] at hd
    rcases hd with rfl | rfl | rfl <;> decide
  obtain ⟨hletter, hdigit, hslash, hu⟩ := hother
  intro hmem
  cases h with
  | plain hquote hslash hline => exact hline (List.mem_singleton.mp hmem ▸ hd)
  | letter e he hc =>
    have heq : d = e := by simpa [hslash] using hmem
    exact absurd (heq ▸ hc) (by simp [hletter])
  | codePoint h₃ h₂ h₁ h₀ hc hdigits =>
    have hmem' : d ∈ [h₃, h₂, h₁, h₀] := by simpa [hslash, hu] using hmem
    exact absurd (List.all_eq_true.mp hdigits d hmem') (by simp [hdigit])

end IsWritten

theorem even_backslashes_flatMap (cs : List Char) :
    Even (backslashes (cs.flatMap escapeChar)) := by
  induction cs using List.reverseRecOn with
  | nil => exact Even.zero
  | append_singleton cs c ih =>
    rw [List.flatMap_append, List.flatMap_singleton]
    exact (isWritten_escapeChar c).even_backslashes_append ih

theorem odd_backslashes_of_quote {cs before after : List Char}
    (h : cs.flatMap escapeChar = before ++ '"' :: after) : Odd (backslashes before) := by
  obtain ⟨earlier, c, later, front, back, -, hc, rfl, -⟩ := exists_code_of_flatMap_eq h
  rw [(isWritten_escapeChar c).front_eq_of_quote hc, backslashes_concat_slash]
  exact (even_backslashes_flatMap earlier).add_one

theorem notMem_flatMap_of_line {cs : List Char} {d : Char} (hd : d ∈ ['\n', '\r', '\x00']) :
    d ∉ cs.flatMap escapeChar := by
  rw [List.mem_flatMap]
  rintro ⟨c, -, hmem⟩
  exact (isWritten_escapeChar c).notMem_of_line hd hmem

/-- A quoted text is written character by character between two quotes. No line ends in it, each quote
between the outer ones is escaped, and it can be read off the front of any text, so that it begins no
other quoted text. -/
theorem quote_unambiguous (s : String) :
    Writer.quote? s = some (quote s) ∧
      (quote s).toList = '"' :: s.toList.flatMap escapeChar ++ ['"'] ∧
      (∀ before after, s.toList.flatMap escapeChar = before ++ '"' :: after →
        Odd (backslashes before)) ∧
      (∀ c ∈ ['\n', '\r', '\x00'], c ∉ s.toList.flatMap escapeChar) ∧
      (∀ rest, unquote? ((quote s).toList ++ rest) = some (s.toList, rest)) ∧
      ∀ t, (quote s).toList <+: (quote t).toList → s = t :=
  ⟨Writer.quote?_eq_some s, toList_quote s, fun _ _ => odd_backslashes_of_quote,
    fun _ => notMem_flatMap_of_line, unquote?_quote s, fun _ => eq_of_quote_prefix⟩

end ParseLog.Text
