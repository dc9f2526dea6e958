import Mathlib.Logic.Function.Basic

/-!
# Files and their names

A directory gives names to files.  A file is opened under its name, but written
by its number, so that what is written reaches the file wherever it has been
moved to.  Renaming gives a file another name, under which no other file is
found from then on.
-/

/-- The files under their names, and what has been written to each. -/
structure FileSystem (π β : Type) where
  entry : π → Option Nat
  content : Nat → List β
  fresh : Nat

namespace FileSystem

variable {π β : Type}

def empty : FileSystem π β where
  entry _ := none
  content _ := []
  fresh := 0

def read (fs : FileSystem π β) (path : π) : Option (List β) :=
  (fs.entry path).map fs.content

def write (fs : FileSystem π β) (file : Nat) (piece : β) : FileSystem π β :=
  { fs with content := Function.update fs.content file (fs.content file ++ [piece]) }

variable [DecidableEq π]

def create (fs : FileSystem π β) (path : π) : Nat × FileSystem π β :=
  match fs.entry path with
  | some file => (file, { fs with content := Function.update fs.content file [] })
  | none => (fs.fresh, {
      entry := Function.update fs.entry path (some fs.fresh)
      content := Function.update fs.content fs.fresh []
      fresh := fs.fresh + 1 })

/-- Replaces the target by the source, if there is a source. -/
def rename (fs : FileSystem π β) (source target : π) : Option (FileSystem π β) :=
  (fs.entry source).map fun file =>
    if source = target then
      fs
    else
      { fs with
        entry := Function.update (Function.update fs.entry target (some file)) source none }

/-- No file has two names, and new files get new numbers. -/
structure Sound (fs : FileSystem π β) : Prop where
  injective : ∀ {path path' file}, fs.entry path = some file → fs.entry path' = some file →
    path = path'
  bounded : ∀ {path file}, fs.entry path = some file → file < fs.fresh

omit [DecidableEq π] in
theorem sound_empty : (empty : FileSystem π β).Sound :=
  ⟨by simp [empty], by simp [empty]⟩

def Untouched (path : π) (fs fs' : FileSystem π β) : Prop :=
  fs'.entry path = fs.entry path ∧
    ∀ file, fs.entry path = some file → fs'.content file = fs.content file

variable {fs fs' : FileSystem π β} {path path' source target : π} {file : Nat}

omit [DecidableEq π] in
theorem Untouched.read (untouched : Untouched path fs fs') : fs'.read path = fs.read path := by
  unfold FileSystem.read
  rw [untouched.1]
  cases found : fs.entry path with
  | none => rfl
  | some file => rw [Option.map_some, Option.map_some, untouched.2 file found]

theorem entry_create_self :
    (fs.create path).2.entry path = some (fs.create path).1 := by
  unfold create
  split
  · assumption
  · exact Function.update_self _ _ _

theorem content_create_self : (fs.create path).2.content (fs.create path).1 = [] := by
  unfold create
  split
  · exact Function.update_self _ _ _
  · exact Function.update_self _ _ _

theorem read_create_self : (fs.create path).2.read path = some [] := by
  rw [read, entry_create_self, Option.map_some, content_create_self]

theorem untouched_create (sound : fs.Sound) (other : path' ≠ path) :
    Untouched path' fs (fs.create path).2 := by
  unfold create
  split
  · rename_i file found
    refine ⟨rfl, fun file' found' => Function.update_of_ne ?_ _ _⟩
    rintro rfl
    exact other (sound.injective found' found)
  · refine ⟨Function.update_of_ne other _ _, fun file' found' => Function.update_of_ne ?_ _ _⟩
    exact Nat.ne_of_lt (sound.bounded found')

theorem Sound.create (sound : fs.Sound) (path : π) : (fs.create path).2.Sound := by
  unfold FileSystem.create
  split
  · exact ⟨sound.injective, sound.bounded⟩
  · have old : ∀ {path' file'},
        Function.update fs.entry path (some fs.fresh) path' = some file' →
          (path' = path ∧ file' = fs.fresh) ∨ fs.entry path' = some file' := by
      intro path' file' found
      by_cases same : path' = path
      · subst same
        rw [Function.update_self, Option.some_inj] at found
        exact Or.inl ⟨rfl, found.symm⟩
      · rw [Function.update_of_ne same] at found
        exact Or.inr found
    constructor
    · intro first second file' foundFirst foundSecond
      rcases old foundFirst with ⟨rfl, rfl⟩ | first
      · rcases old foundSecond with ⟨rfl, -⟩ | second
        · rfl
        · exact absurd (sound.bounded second) (Nat.lt_irrefl _)
      · rcases old foundSecond with ⟨rfl, rfl⟩ | second
        · exact absurd (sound.bounded first) (Nat.lt_irrefl _)
        · exact sound.injective first second
    · intro path' file' found
      rcases old found with ⟨-, rfl⟩ | found
      · exact Nat.lt_succ_self _
      · exact Nat.lt_succ_of_lt (sound.bounded found)

omit [DecidableEq π] in
theorem content_write_self (piece : β) :
    (fs.write file piece).content file = fs.content file ++ [piece] :=
  Function.update_self _ _ _

omit [DecidableEq π] in
theorem untouched_write (sound : fs.Sound) (found : fs.entry path = some file)
    (other : path' ≠ path) (piece : β) : Untouched path' fs (fs.write file piece) := by
  refine ⟨rfl, fun file' found' => Function.update_of_ne ?_ _ _⟩
  rintro rfl
  exact other (sound.injective found' found)

omit [DecidableEq π] in
theorem Sound.write (sound : fs.Sound) (file : Nat) (piece : β) : (fs.write file piece).Sound :=
  ⟨sound.injective, sound.bounded⟩

theorem read_rename (distinct : source ≠ target) (renamed : fs.rename source target = some fs') :
    fs'.read target = fs.read source := by
  obtain ⟨file, found, rfl⟩ := Option.map_eq_some_iff.mp renamed
  have entry : Function.update (Function.update fs.entry target (some file)) source none target =
      some file := by
    rw [Function.update_of_ne distinct.symm, Function.update_self]
  rw [if_neg distinct]
  unfold read
  rw [found]
  exact congrArg (Option.map fs.content) entry

theorem exists_rename {pieces : List β} (distinct : source ≠ target)
    (found : fs.read source = some pieces) :
    ∃ fs', fs.rename source target = some fs' ∧ fs'.read target = some pieces := by
  obtain ⟨file, entry, -⟩ := Option.map_eq_some_iff.mp found
  have renamed : fs.rename source target = some _ := Option.map_eq_some_iff.mpr ⟨file, entry, rfl⟩
  exact ⟨_, renamed, (read_rename distinct renamed).trans found⟩

theorem untouched_rename (renamed : fs.rename source target = some fs')
    (notSource : path ≠ source) (notTarget : path ≠ target) : Untouched path fs fs' := by
  obtain ⟨file, found, rfl⟩ := Option.map_eq_some_iff.mp renamed
  split
  · exact ⟨rfl, fun _ _ => rfl⟩
  · have entry : Function.update (Function.update fs.entry target (some file)) source none path =
        fs.entry path := by
      rw [Function.update_of_ne notSource, Function.update_of_ne notTarget]
    exact ⟨entry, fun _ _ => rfl⟩

theorem Sound.rename (sound : fs.Sound) (renamed : fs.rename source target = some fs') :
    fs'.Sound := by
  obtain ⟨file, found, rfl⟩ := Option.map_eq_some_iff.mp renamed
  split
  · exact sound
  · have old : ∀ {path file'},
        Function.update (Function.update fs.entry target (some file)) source none path =
            some file' →
          (path = target ∧ file' = file) ∨ (path ≠ source ∧ fs.entry path = some file') := by
      intro path file' foundNow
      by_cases isSource : path = source
      · subst isSource
        rw [Function.update_self] at foundNow
        cases foundNow
      · rw [Function.update_of_ne isSource] at foundNow
        by_cases isTarget : path = target
        · subst isTarget
          rw [Function.update_self, Option.some_inj] at foundNow
          exact Or.inl ⟨rfl, foundNow.symm⟩
        · rw [Function.update_of_ne isTarget] at foundNow
          exact Or.inr ⟨isSource, foundNow⟩
    constructor
    · intro first second file' foundFirst foundSecond
      rcases old foundFirst with ⟨rfl, rfl⟩ | ⟨notSource, first⟩
      · rcases old foundSecond with ⟨rfl, -⟩ | ⟨notSource, second⟩
        · rfl
        · exact (notSource (sound.injective second found)).elim
      · rcases old foundSecond with ⟨rfl, rfl⟩ | ⟨-, second⟩
        · exact (notSource (sound.injective first found)).elim
        · exact sound.injective first second
    · intro path file' foundNow
      rcases old foundNow with ⟨-, rfl⟩ | ⟨-, before⟩
      · exact sound.bounded found
      · exact sound.bounded before

end FileSystem
