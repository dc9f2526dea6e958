import HabiCore.DebugFormat
import HabiCore.PrefixCodes

/-!
# Reading debug output

Quotes and escapes show where a string ends, and brackets and commas where a
vector does, whatever text follows.
-/

namespace HabiCore.DebugFormat

open PrefixCodes

def symbols (c : Char) : List Char :=
  (char c).toList

theorem digitChar_injective : ∀ m < 16, ∀ n < 16, Nat.digitChar m = Nat.digitChar n → m = n := by
  decide

theorem digitChar_ne_brace : ∀ m < 16, Nat.digitChar m ≠ '\x7d' := by
  decide

theorem length_toDigits_of_large {n : Nat} (large : ¬ n < 16) :
    1 < (Nat.toDigits 16 n).length := by
  have upper : 0 < (Nat.toDigits 16 (n / 16)).length := Nat.length_toDigits_pos
  rw [Nat.toDigits_eq_if (by decide), if_neg large, List.length_append, List.length_singleton]
  omega

theorem toDigits_injective (m n : Nat) (same : Nat.toDigits 16 m = Nat.toDigits 16 n) :
    m = n := by
  induction m using Nat.strong_induction_on generalizing n with
  | h m ih =>
      have sameLength := congrArg List.length same
      by_cases small : m < 16
      · rw [Nat.toDigits_of_lt_base small] at same sameLength
        by_cases small' : n < 16
        · rw [Nat.toDigits_of_lt_base small'] at same
          exact digitChar_injective m small n small' (by simpa using same)
        · have longer := length_toDigits_of_large small'
          simp only [List.length_singleton] at sameLength
          omega
      · by_cases small' : n < 16
        · rw [Nat.toDigits_of_lt_base small', List.length_singleton] at sameLength
          have longer := length_toDigits_of_large small
          omega
        · rw [Nat.toDigits_eq_if (by decide), if_neg small,
            Nat.toDigits_eq_if (n := n) (by decide), if_neg small'] at same
          obtain ⟨upper, lower⟩ := List.append_inj' same rfl
          have sameUpper := ih (m / 16) (Nat.div_lt_self (by omega) (by decide)) (n / 16) upper
          have sameLower := digitChar_injective (m % 16) (Nat.mod_lt _ (by decide)) (n % 16)
            (Nat.mod_lt _ (by decide)) (by simpa using lower)
          omega

theorem brace_not_mem_toDigits (n : Nat) : '\x7d' ∉ Nat.toDigits 16 n := by
  induction n using Nat.strong_induction_on with
  | h n ih =>
      rw [Nat.toDigits_eq_if (by decide)]
      split
      · rename_i small
        simp [(digitChar_ne_brace n small).symm]
      · have upper := ih (n / 16) (Nat.div_lt_self (by omega) (by decide))
        have lower := digitChar_ne_brace (n % 16) (Nat.mod_lt _ (by decide))
        simp [upper, lower.symm]

/-- The characters with an escape of their own, with the letter of the escape. -/
def letters : List (Char × Char) :=
  [(Char.ofNat 0, '0'), ('\t', 't'), ('\n', 'n'), ('\r', 'r'), ('\"', '\"'), ('\\', '\\')]

theorem symbols_cases (c : Char) :
    (∃ letter, (c, letter) ∈ letters ∧ symbols c = ['\\', letter]) ∨
    (symbols c = '\\' :: 'u' :: '\x7b' :: (Nat.toDigits 16 c.toNat ++ ['\x7d'])) ∨
    (symbols c = [c] ∧ c ≠ '\\' ∧ c ≠ '\"') := by
  by_cases lettered : ∃ letter, (c, letter) ∈ letters
  · obtain ⟨letter, member⟩ := lettered
    refine Or.inl ⟨letter, member, ?_⟩
    have rendered : ∀ entry ∈ letters, symbols entry.1 = ['\\', entry.2] := by decide +kernel
    exact rendered _ member
  · have other : ∀ d letter, (d, letter) ∈ letters → c ≠ d := by
      rintro d letter member rfl
      exact lettered ⟨letter, member⟩
    have codes : ∀ d letter, (d, letter) ∈ letters → c.toNat ≠ d.toNat :=
      fun d letter member same => other d letter member (Char.toNat_inj.mp same)
    have unlettered : ¬ c.toNat = 0 ∧ ¬ c.toNat = 9 ∧ ¬ c.toNat = 10 ∧ ¬ c.toNat = 13 ∧
        ¬ c.toNat = 34 ∧ ¬ c.toNat = 92 := by
      refine ⟨codes (Char.ofNat 0) '0' (by decide), codes '\t' 't' (by decide),
        codes '\n' 'n' (by decide), codes '\r' 'r' (by decide), codes '\"' '\"' (by decide),
        codes '\\' '\\' (by decide)⟩
    obtain ⟨zero, tab, feed, ret, quote, backslash⟩ := unlettered
    refine Or.inr ?_
    unfold symbols char
    rw [if_neg zero, if_neg tab, if_neg feed, if_neg ret, if_neg quote, if_neg backslash]
    split
    · refine Or.inl ?_
      simp [hexadecimal, String.toList_append]
    · exact Or.inr ⟨by simp, other '\\' '\\' (by decide), other '\"' '\"' (by decide)⟩

theorem letters_injective : ∀ entry ∈ letters, ∀ other ∈ letters,
    entry.2 = other.2 → entry.1 = other.1 := by
  decide

theorem letters_ne_u : ∀ entry ∈ letters, entry.2 ≠ 'u' := by
  decide

theorem symbols_prefixFree (c d : Char) (begins : symbols c <+: symbols d) : c = d := by
  rcases symbols_cases c with ⟨letter, member, ofC⟩ | ofC | ⟨ofC, noBackslash, -⟩
  · rcases symbols_cases d with ⟨letter', member', ofD⟩ | ofD | ⟨ofD, -, -⟩
    · rw [ofC, ofD] at begins
      have same : letter = letter' := by simpa using begins
      exact letters_injective _ member _ member' same
    · rw [ofC, ofD] at begins
      have isU : letter = 'u' := by simpa using begins
      exact (letters_ne_u _ member isU).elim
    · rw [ofC, ofD] at begins
      simp at begins
  · rcases symbols_cases d with ⟨letter', member', ofD⟩ | ofD | ⟨ofD, -, -⟩
    · rw [ofC, ofD] at begins
      simp at begins
    · rw [ofC, ofD] at begins
      obtain ⟨rest, whole⟩ := begins
      have digits : Nat.toDigits 16 c.toNat ++ '\x7d' :: rest =
          Nat.toDigits 16 d.toNat ++ '\x7d' :: [] := by simpa using whole
      obtain ⟨same, -⟩ := eq_of_marked (brace_not_mem_toDigits _) (brace_not_mem_toDigits _) digits
      exact Char.toNat_inj.mp (toDigits_injective _ _ same)
    · rw [ofC, ofD] at begins
      simp at begins
  · rcases symbols_cases d with ⟨letter', member', ofD⟩ | ofD | ⟨ofD, -, -⟩
    · rw [ofC, ofD] at begins
      exact (noBackslash (by simpa using begins)).elim
    · rw [ofC, ofD] at begins
      exact (noBackslash (by simpa using begins)).elim
    · rw [ofC, ofD] at begins
      simpa using begins

theorem symbols_avoids : Avoids '\"' symbols := by
  intro c
  rcases symbols_cases c with ⟨letter, -, isText⟩ | isText | ⟨isText, -, noQuote⟩
  · exact ⟨'\\', [letter], isText, by decide⟩
  · exact ⟨'\\', _, isText, by decide⟩
  · exact ⟨c, [], isText, noQuote⟩

theorem toList_string (s : String) :
    (string s).toList = ['\"'] ++ (s.toList.flatMap symbols ++ ['\"']) := by
  simp only [string, String.toList_append, String.toList_join, List.flatMap_map,
    List.append_assoc]
  rfl

theorem string_selfDelimiting : SelfDelimiting fun s => (string s).toList := by
  intro s s' rest rest' same
  have delimiting := ((selfDelimiting_of_prefixFree symbols_prefixFree).ended symbols_avoids).opened
    ['\"']
  simp only [toList_string] at same
  obtain ⟨sameSymbols, sameRest⟩ := delimiting same
  exact ⟨String.toList_inj.mp sameSymbols, sameRest⟩

theorem toList_strings (items : List String) :
    (strings items).toList =
      ['['] ++ ([',', ' '].intercalate (items.map fun s => (string s).toList) ++ [']']) := by
  simp [strings, vector, String.toList_append, String.toList_intercalate, Function.comp_def]

/-- A rendered vector of strings can be told apart from the text after it. -/
theorem strings_selfDelimiting : SelfDelimiting fun items => (strings items).toList := by
  have avoids : Avoids ']' fun s => (string s).toList :=
    fun s => ⟨'\"', _, toList_string s, by decide⟩
  have delimiting := (string_selfDelimiting.separated avoids [' ']
    (by decide : (',' : Char) ≠ ']')).opened ['[']
  intro items items' rest rest' same
  simp only [toList_strings] at same
  exact delimiting same

end HabiCore.DebugFormat
