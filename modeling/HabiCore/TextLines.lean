import Mathlib.Data.Finset.Max
import Mathlib.Data.List.DropRight

/-!
# Lines of a text

A text is read line by line.  The reader takes the terminator off a line, and
one return symbol before the terminator with it, so that a line that itself
ends in a return symbol is not read as it was written.
-/

namespace TextLines

variable {α : Type*} [DecidableEq α]

/-- A line without the return symbol at its end. -/
def chomp (ret : α) (line : List α) : List α :=
  if line.getLast? = some ret then line.dropLast else line

/-- The reader's loop, with the line it is in.  Text after the last terminator
is a line of its own, of which nothing is taken off. -/
def linesLoop (terminator ret : α) (current : List α) : List α → List (List α)
  | [] => if current = [] then [] else [current]
  | c :: rest =>
      if c = terminator then
        chomp ret current :: linesLoop terminator ret [] rest
      else
        linesLoop terminator ret (current ++ [c]) rest

def lines (terminator ret : α) (text : List α) : List (List α) :=
  linesLoop terminator ret [] text

variable {terminator ret : α} {line line' : List α}

theorem chomp_of_ends (ends : line.getLast? = some ret) : chomp ret line = line.dropLast :=
  if_pos ends

theorem chomp_eq_self_iff : chomp ret line = line ↔ line.getLast? ≠ some ret := by
  constructor
  · intro same ends
    obtain ⟨init, rfl⟩ := List.getLast?_eq_some_iff.mp ends
    rw [chomp_of_ends ends] at same
    simp at same
  · exact fun ends => if_neg ends

theorem chomp_append (nonempty : line' ≠ []) :
    chomp ret (line ++ line') = line ++ chomp ret line' := by
  have last : (line ++ line').getLast? = line'.getLast? := by
    rw [List.getLast?_append]
    obtain ⟨c, isLast⟩ := Option.isSome_iff_exists.mp (List.getLast?_isSome.mpr nonempty)
    rw [isLast]
    rfl
  unfold chomp
  rw [last]
  split
  · exact List.dropLast_append_of_ne_nil nonempty
  · rfl

theorem length_chomp_lt (changed : chomp ret line ≠ line) :
    (chomp ret line).length < line.length := by
  have ends : line.getLast? = some ret := not_not.mp fun other =>
    changed (chomp_eq_self_iff.mpr other)
  obtain ⟨init, rfl⟩ := List.getLast?_eq_some_iff.mp ends
  rw [chomp_of_ends ends]
  simp

theorem linesLoop_line {current : List α} (oneLine : terminator ∉ line) (rest : List α) :
    linesLoop terminator ret current (line ++ terminator :: rest) =
      chomp ret (current ++ line) :: linesLoop terminator ret [] rest := by
  induction line generalizing current with
  | nil => simp [linesLoop]
  | cons c line ih =>
      have distinct : c ≠ terminator := fun same => oneLine (by simp [same])
      have later : terminator ∉ line := fun member => oneLine (List.mem_cons_of_mem _ member)
      rw [List.cons_append, linesLoop, if_neg distinct, ih later, List.append_assoc]
      rfl

/-- Terminated lines are read one by one. -/
theorem lines_terminated {parts : List (List α)} (oneLine : ∀ part ∈ parts, terminator ∉ part) :
    lines terminator ret (parts.flatMap fun part => part ++ [terminator]) =
      parts.map (chomp ret) := by
  induction parts with
  | nil => rfl
  | cons part rest ih =>
      have later := ih fun other member => oneLine other (List.mem_cons_of_mem _ member)
      rw [List.flatMap_cons, List.append_assoc, lines, List.singleton_append,
        linesLoop_line (oneLine part List.mem_cons_self), List.nil_append, List.map_cons, ← later]
      rfl

section Strip

variable {β : Type*} {p : β → Bool} {text left right : List β}

def strip (p : β → Bool) (text : List β) : List β :=
  (text.dropWhile p).rdropWhile p

theorem rdropWhile_append_of_pos (blanks : ∀ c ∈ right, p c = true) :
    (text ++ right).rdropWhile p = text.rdropWhile p := by
  rw [List.rdropWhile, List.rdropWhile, List.reverse_append,
    List.dropWhile_append_of_pos fun c member => blanks c (List.mem_reverse.mp member)]

/-- Blanks around a text do not matter. -/
theorem strip_padded (before : ∀ c ∈ left, p c = true) (after : ∀ c ∈ right, p c = true) :
    strip p (left ++ text ++ right) = strip p text := by
  rw [strip, List.append_assoc, List.dropWhile_append_of_pos before, List.dropWhile_append]
  split
  · rename_i nothing
    have empty : text.dropWhile p = [] := List.isEmpty_iff.mp nothing
    have none : right.dropWhile p = [] := List.dropWhile_eq_nil_iff.mpr after
    rw [strip, empty, none]
  · rw [rdropWhile_append_of_pos after, strip]

theorem strip_eq_self_iff :
    strip p text = text ↔
      (∀ c, text.head? = some c → p c = false) ∧ (∀ c, text.getLast? = some c → p c = false) := by
  constructor
  · intro same
    have front : text.dropWhile p = text := by
      refine (List.dropWhile_suffix p).eq_of_length
        (le_antisymm (List.length_dropWhile_le p text) ?_)
      have shorter := (List.rdropWhile_prefix p (l := text.dropWhile p)).length_le
      rwa [← strip, same] at shorter
    rw [strip, front] at same
    constructor
    · intro c isHead
      obtain ⟨rest, rfl⟩ := List.head?_eq_some_iff.mp isHead
      simpa using List.dropWhile_eq_self_iff.mp front
    · intro c isLast
      obtain ⟨rest, rfl⟩ := List.getLast?_eq_some_iff.mp isLast
      simpa using List.rdropWhile_eq_self_iff.mp same
  · rintro ⟨front, back⟩
    have keepsFront : text.dropWhile p = text := by
      cases text with
      | nil => rfl
      | cons c rest => exact List.dropWhile_cons_of_neg (by simp [front c rfl])
    rw [strip, keepsFront]
    rw [List.rdropWhile_eq_self_iff]
    intro nonempty
    simp [back _ (List.getLast?_eq_some_getLast nonempty)]

end Strip

/-- A map that makes every element it moves smaller keeps no finite set in which
it moves an element. -/
theorem image_eq_self_iff {f : α → α} (size : α → Nat)
    (shrinks : ∀ x, f x ≠ x → size (f x) < size x) {items : Finset α} :
    items.image f = items ↔ ∀ x ∈ items, f x = x := by
  constructor
  · intro same x member
    by_contra moved
    have nonempty : (items.filter fun y => f y ≠ y).Nonempty :=
      ⟨x, Finset.mem_filter.mpr ⟨member, moved⟩⟩
    obtain ⟨largest, isLargest, bound⟩ := Finset.exists_max_image _ size nonempty
    obtain ⟨isItem, isMoved⟩ := Finset.mem_filter.mp isLargest
    rw [← same] at isItem
    obtain ⟨y, yIn, rfl⟩ := Finset.mem_image.mp isItem
    have yMoved : f y ≠ y := fun fixed => isMoved (by rw [fixed, fixed])
    have small := bound y (Finset.mem_filter.mpr ⟨yIn, yMoved⟩)
    exact absurd (shrinks y yMoved) (Nat.not_lt.mpr small)
  · intro fixed
    ext x
    rw [Finset.mem_image]
    constructor
    · rintro ⟨y, yIn, rfl⟩
      rwa [fixed y yIn]
    · exact fun member => ⟨x, member, fixed x member⟩

end TextLines
