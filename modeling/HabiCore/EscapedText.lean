import Mathlib.Data.List.Basic

/-!
# Text with escaped delimiters

Fields are joined by a delimiter, and an escape symbol in front of a symbol
protects it from being read as one.  The scanner that splits such a text leaves
its fields escaped, so that a field may itself be a text of this kind with
another delimiter.
-/

namespace EscapedText

variable {α : Type*} [DecidableEq α]

/-- Every special symbol gets the escape symbol in front of it. -/
def escape (esc : α) (special : α → Bool) (text : List α) : List α :=
  text.flatMap fun c => if special c then [esc, c] else [c]

/-- An escape symbol in front of any other symbol stands for itself. -/
def unescape (esc : α) (special : α → Bool) : List α → List α
  | [] => []
  | c :: rest =>
      if c = esc then
        match rest with
        | [] => [c]
        | next :: rest =>
            if special next then next :: unescape esc special rest
            else c :: next :: unescape esc special rest
      else
        c :: unescape esc special rest

/-- The scanner's loop, with the fields it has completed and the field it is in. -/
def splitLoop (esc delimiter : α) (fields : List (List α)) (current : List α) :
    List α → List (List α)
  | [] => fields ++ [current]
  | c :: rest =>
      if c = esc then
        match rest with
        | [] => fields ++ [current ++ [c]]
        | next :: rest => splitLoop esc delimiter fields (current ++ [c, next]) rest
      else if c = delimiter then
        splitLoop esc delimiter (fields ++ [current]) [] rest
      else
        splitLoop esc delimiter fields (current ++ [c]) rest

def split (esc delimiter : α) (text : List α) : List (List α) :=
  splitLoop esc delimiter [] [] text

/-- A text in which the given symbols occur behind the escape symbol only. -/
inductive Shielded (esc : α) (exposed : α → Prop) : List α → Prop
  | nil : Shielded esc exposed []
  | plain {c : α} {text : List α} : c ≠ esc → ¬ exposed c → Shielded esc exposed text →
      Shielded esc exposed (c :: text)
  | pair {c : α} {text : List α} : Shielded esc exposed text →
      Shielded esc exposed (esc :: c :: text)

variable {esc delimiter : α} {special : α → Bool} {exposed exposed' : α → Prop}
  {text text' : List α}

omit [DecidableEq α] in
theorem Shielded.append (first : Shielded esc exposed text)
    (second : Shielded esc exposed text') : Shielded esc exposed (text ++ text') := by
  induction first with
  | nil => exact second
  | plain notEsc hidden _ ih => exact .plain notEsc hidden ih
  | pair _ ih => exact .pair ih

omit [DecidableEq α] in
theorem Shielded.mono (shielded : Shielded esc exposed text)
    (fewer : ∀ c, exposed' c → exposed c) : Shielded esc exposed' text := by
  induction shielded with
  | nil => exact .nil
  | plain notEsc hidden _ ih => exact .plain notEsc (fun isExposed => hidden (fewer _ isExposed)) ih
  | pair _ ih => exact .pair ih

omit [DecidableEq α] in
theorem Shielded.intercalate {parts : List (List α)} (notEsc : delimiter ≠ esc)
    (hidden : ¬ exposed delimiter) (shielded : ∀ part ∈ parts, Shielded esc exposed part) :
    Shielded esc exposed ([delimiter].intercalate parts) := by
  induction parts with
  | nil => exact .nil
  | cons part rest ih =>
      have first := shielded part List.mem_cons_self
      have others := ih fun other member => shielded other (List.mem_cons_of_mem _ member)
      cases rest with
      | nil =>
          rw [List.intercalate_singleton]
          exact first
      | cons next rest =>
          rw [List.intercalate_cons_cons, List.append_assoc]
          exact first.append (.plain notEsc hidden others)

omit [DecidableEq α] in
theorem escape_cons (c : α) (text : List α) :
    escape esc special (c :: text) =
      (if special c then [esc, c] else [c]) ++ escape esc special text := by
  simp [escape]

omit [DecidableEq α] in
theorem shielded_escape (escSpecial : special esc = true) (text : List α) :
    Shielded esc (fun c => special c = true) (escape esc special text) := by
  induction text with
  | nil => exact .nil
  | cons c rest ih =>
      rw [escape_cons]
      cases isSpecial : special c with
      | true => exact .pair ih
      | false =>
          have notEsc : c ≠ esc := by
            rintro rfl
            simp [escSpecial] at isSpecial
          exact .plain notEsc (by simp [isSpecial]) ih

theorem unescape_plain {c : α} (notEsc : c ≠ esc) (rest : List α) :
    unescape esc special (c :: rest) = c :: unescape esc special rest := by
  rw [unescape.eq_def]
  simp [notEsc]

theorem unescape_pair {c : α} (isSpecial : special c = true) (rest : List α) :
    unescape esc special (esc :: c :: rest) = c :: unescape esc special rest := by
  rw [unescape.eq_def]
  simp [isSpecial]

theorem unescape_escape (escSpecial : special esc = true) (text : List α) :
    unescape esc special (escape esc special text) = text := by
  induction text with
  | nil => rfl
  | cons c rest ih =>
      rw [escape_cons]
      cases isSpecial : special c with
      | true =>
          change unescape esc special (esc :: c :: escape esc special rest) = _
          rw [unescape_pair isSpecial, ih]
      | false =>
          have notEsc : c ≠ esc := by
            rintro rfl
            simp [escSpecial] at isSpecial
          change unescape esc special (c :: escape esc special rest) = _
          rw [unescape_plain notEsc, ih]

section Split

variable {fields : List (List α)} {current : List α}

theorem splitLoop_plain {c : α} (notEsc : c ≠ esc) (notDelimiter : c ≠ delimiter)
    (rest : List α) :
    splitLoop esc delimiter fields current (c :: rest) =
      splitLoop esc delimiter fields (current ++ [c]) rest := by
  rw [splitLoop.eq_def]
  simp [notEsc, notDelimiter]

theorem splitLoop_pair (c : α) (rest : List α) :
    splitLoop esc delimiter fields current (esc :: c :: rest) =
      splitLoop esc delimiter fields (current ++ [esc, c]) rest := by
  rw [splitLoop.eq_def]
  simp

theorem splitLoop_delimiter (distinct : delimiter ≠ esc) (rest : List α) :
    splitLoop esc delimiter fields current (delimiter :: rest) =
      splitLoop esc delimiter (fields ++ [current]) [] rest := by
  rw [splitLoop.eq_def]
  simp [distinct]

/-- The scanner passes over shielded text. -/
theorem splitLoop_shielded (shielded : Shielded esc (· = delimiter) text) (rest : List α) :
    splitLoop esc delimiter fields current (text ++ rest) =
      splitLoop esc delimiter fields (current ++ text) rest := by
  induction shielded generalizing current with
  | nil => rw [List.nil_append, List.append_nil]
  | plain notEsc hidden _ ih =>
      rw [List.cons_append, splitLoop_plain notEsc hidden, ih, List.append_assoc]
      rfl
  | pair _ ih =>
      rw [List.cons_append, List.cons_append, splitLoop_pair, ih, List.append_assoc]
      rfl

theorem splitLoop_intercalate (distinct : delimiter ≠ esc) (part : List α)
    (parts : List (List α))
    (shielded : ∀ other ∈ part :: parts, Shielded esc (· = delimiter) other) :
    splitLoop esc delimiter fields [] ([delimiter].intercalate (part :: parts)) =
      fields ++ part :: parts := by
  induction parts generalizing part fields with
  | nil =>
      have first := shielded part List.mem_cons_self
      rw [List.intercalate_singleton, ← List.append_nil part, splitLoop_shielded first]
      simp [splitLoop]
  | cons next rest ih =>
      have first := shielded part List.mem_cons_self
      have others : ∀ other ∈ next :: rest, Shielded esc (· = delimiter) other :=
        fun other member => shielded other (List.mem_cons_of_mem _ member)
      rw [List.intercalate_cons_cons, List.append_assoc, splitLoop_shielded first,
        List.singleton_append, splitLoop_delimiter distinct, ih next others]
      simp

/-- Splitting undoes joining, unless there is nothing to join. -/
theorem split_intercalate (distinct : delimiter ≠ esc) {parts : List (List α)}
    (nonempty : parts ≠ []) (shielded : ∀ part ∈ parts, Shielded esc (· = delimiter) part) :
    split esc delimiter ([delimiter].intercalate parts) = parts := by
  cases parts with
  | nil => exact (nonempty rfl).elim
  | cons part rest => exact splitLoop_intercalate distinct part rest shielded

end Split

omit [DecidableEq α] in
theorem getLast?_escape (text : List α) :
    (escape esc special text).getLast? = text.getLast? := by
  induction text with
  | nil => rfl
  | cons c rest ih =>
      rw [escape_cons, List.getLast?_append, ih, List.getLast?_cons]
      cases rest.getLast? <;> cases special c <;> rfl

omit [DecidableEq α] in
theorem getLast?_intercalate (parts : List (List α)) (last : List α) :
    ([delimiter].intercalate (parts ++ [last])).getLast? =
      last.getLast?.or (if parts = [] then none else some delimiter) := by
  induction parts with
  | nil => simp
  | cons part rest ih =>
      rw [List.cons_append, List.intercalate_cons_of_ne_nil (by simp), List.getLast?_append, ih]
      cases last.getLast? with
      | some c => rfl
      | none => cases rest <;> simp

omit [DecidableEq α] in
theorem intercalate_concat (parts : List (List α)) (part last : List α) :
    [delimiter].intercalate (parts ++ [part, last]) =
      [delimiter].intercalate (parts ++ [part ++ delimiter :: last]) := by
  induction parts with
  | nil => simp
  | cons first rest ih =>
      rw [List.cons_append, List.cons_append, List.intercalate_cons_of_ne_nil (by simp),
        List.intercalate_cons_of_ne_nil (by simp), ih]

theorem getLast?_unescape (text : List α) :
    (unescape esc special text).getLast? = text.getLast? := by
  fun_induction unescape esc special text with
  | case1 => rfl
  | case2 => rfl
  | case3 next rest isSpecial ih =>
      rw [List.getLast?_cons, ih, List.getLast?_cons_cons, List.getLast?_cons]
  | case4 next rest notSpecial ih =>
      rw [List.getLast?_cons_cons, List.getLast?_cons, ih, List.getLast?_cons_cons,
        List.getLast?_cons]
  | case5 c rest notEsc ih => rw [List.getLast?_cons, ih, List.getLast?_cons]

theorem unescape_eq_nil : unescape esc special text = [] ↔ text = [] := by
  rw [← List.getLast?_eq_none_iff, getLast?_unescape, List.getLast?_eq_none_iff]

theorem intercalate_splitLoop (fields : List (List α)) (current text : List α) :
    [delimiter].intercalate (splitLoop esc delimiter fields current text) =
      [delimiter].intercalate (fields ++ [current ++ text]) := by
  fun_induction splitLoop esc delimiter fields current text with
  | case1 fields current => rw [List.append_nil]
  | case2 fields current => rfl
  | case3 fields current next rest ih =>
      rw [ih, List.append_assoc]
      rfl
  | case4 fields current rest distinct ih =>
      rw [ih, List.append_assoc]
      exact intercalate_concat fields current rest
  | case5 fields current c rest notEsc notDelimiter ih =>
      rw [ih, List.append_assoc]
      rfl

/-- Joining undoes splitting. -/
theorem intercalate_split (text : List α) :
    [delimiter].intercalate (split esc delimiter text) = text := by
  rw [split, intercalate_splitLoop]
  simp

theorem getLast?_of_split {last : List α} {c : α}
    (isLast : (split esc delimiter text).getLast? = some last) (ends : last.getLast? = some c) :
    text.getLast? = some c := by
  obtain ⟨parts, splits⟩ := List.getLast?_eq_some_iff.mp isLast
  have joined : [delimiter].intercalate (split esc delimiter text) = text :=
    intercalate_split text
  rw [← joined, splits, getLast?_intercalate, ends]
  rfl

omit [DecidableEq α] in
theorem mem_intercalate {separator part : List α} {parts : List (List α)} {c : α}
    (isPart : part ∈ parts) (member : c ∈ part) : c ∈ separator.intercalate parts := by
  induction parts with
  | nil => simp at isPart
  | cons first rest ih =>
      cases rest with
      | nil =>
          obtain rfl := List.mem_singleton.mp isPart
          simpa using member
      | cons next rest =>
          rw [List.intercalate_cons_cons, List.append_assoc, List.mem_append, List.mem_append]
          rcases List.mem_cons.mp isPart with rfl | later
          · exact Or.inl member
          · exact Or.inr (Or.inr (ih later))

theorem mem_of_mem_split {part : List α} {c : α} (isPart : part ∈ split esc delimiter text)
    (member : c ∈ part) : c ∈ text := by
  have joined : [delimiter].intercalate (split esc delimiter text) = text :=
    intercalate_split text
  rw [← joined]
  exact mem_intercalate isPart member

theorem mem_of_mem_unescape {c : α} (member : c ∈ unescape esc special text) : c ∈ text := by
  fun_induction unescape esc special text with
  | case1 => exact member
  | case2 => exact member
  | case3 next rest isSpecial ih =>
      rcases List.mem_cons.mp member with rfl | later
      · simp
      · simp [ih later]
  | case4 next rest notSpecial ih =>
      simp only [List.mem_cons] at member ⊢
      rcases member with isEsc | isNext | later
      · exact Or.inl isEsc
      · exact Or.inr (Or.inl isNext)
      · exact Or.inr (Or.inr (ih later))
  | case5 d rest notEsc ih =>
      rcases List.mem_cons.mp member with rfl | later
      · exact List.mem_cons_self
      · exact List.mem_cons_of_mem _ (ih later)

omit [DecidableEq α] in
theorem takeWhile_escape {p : α → Bool} (passesEsc : p esc = true)
    (passes : ∀ c, special c = true → p c = true) (text : List α) :
    (escape esc special text).takeWhile p = escape esc special (text.takeWhile p) := by
  induction text with
  | nil => rfl
  | cons c text ih =>
      rw [escape_cons]
      cases isSpecial : special c with
      | true => simp [passesEsc, passes c isSpecial, ih, escape_cons, isSpecial]
      | false =>
          cases stops : p c with
          | true => simp [stops, ih, escape_cons, isSpecial]
          | false => simp [stops, escape]

end EscapedText
