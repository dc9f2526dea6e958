import HabiCore.FileSystem
import HabiCore.LabelledRuns
import HabiCore.Persistence

/-!
# Saves that interleave

A state is saved by writing it to a temporary file, line by line, and renaming
this file to the state file.  The name of the temporary file is the name of the
state file with another extension, and this need not be a name of its own:
`node.1` and `node.2` have the same one.
-/

open LabelledRuns

namespace HabiCore

structure FileName where
  name : String
  valid : name ≠ "" ∧ name ≠ "." ∧ name ≠ ".." ∧ '/' ∉ name.toList
  deriving DecidableEq

namespace FileName

/-- `Path::file_stem`: what is before the last dot, which must not be the first
character. -/
def fileStem (file : FileName) : String :=
  match ((file.name.toList.reverse.dropWhile (· ≠ '.')).drop 1).reverse with
  | [] => file.name
  | before => String.ofList before

theorem fileStem_toList_ne_nil (file : FileName) : file.fileStem.toList ≠ [] := by
  unfold fileStem
  split
  · intro empty
    exact file.valid.1 (String.toList_inj.mp empty)
  · rename_i nonempty
    rw [String.toList_ofList]
    exact nonempty

theorem mem_of_mem_fileStem {file : FileName} {c : Char} (member : c ∈ file.fileStem.toList) :
    c ∈ file.name.toList := by
  unfold fileStem at member
  split at member
  · exact member
  · rw [String.toList_ofList, List.mem_reverse] at member
    exact List.mem_reverse.mp
      (List.dropWhile_subset _ (List.mem_of_mem_drop member))

theorem valid_tmp (file : FileName) :
    file.fileStem ++ ".tmp" ≠ "" ∧ file.fileStem ++ ".tmp" ≠ "." ∧
      file.fileStem ++ ".tmp" ≠ ".." ∧ '/' ∉ (file.fileStem ++ ".tmp").toList := by
  have nonempty := List.length_pos_iff.mpr file.fileStem_toList_ne_nil
  have length : (file.fileStem ++ ".tmp").toList.length = file.fileStem.toList.length + 4 := by
    rw [String.toList_append, List.length_append]
    rfl
  refine ⟨?_, ?_, ?_, ?_⟩
  · intro equal
    rw [equal] at length
    exact absurd length (by change 0 ≠ _; omega)
  · intro equal
    rw [equal] at length
    exact absurd length (by change 1 ≠ _; omega)
  · intro equal
    rw [equal] at length
    exact absurd length (by change 2 ≠ _; omega)
  · intro member
    rw [String.toList_append] at member
    rcases List.mem_append.mp member with inStem | inExtension
    · exact file.valid.2.2.2 (mem_of_mem_fileStem inStem)
    · exact absurd inExtension (by decide)

/-- `path.with_extension("tmp")`.  Without its extension a name such as `..x` is
that of the parent directory; it has no stem to which another one is added, and
the path is no file. -/
def withTmp (file : FileName) : Option FileName :=
  if file.fileStem = "." then none else some ⟨file.fileStem ++ ".tmp", file.valid_tmp⟩

example : withTmp ⟨"..x", by decide⟩ = none := by decide

end FileName

namespace Persistence

inductive Phase where
  | idle
  | begun (node : Node)
  | writing (node : Node) (file : Nat) (rest : List String)
  | synced (node : Node)
  deriving DecidableEq

/-- The next step of a call. A call is abandoned on an error, and when its
process dies. -/
inductive SaveEvent where
  | started (node : Node)
  | created
  | wrote
  | synced
  | renamed
  | abandoned
  deriving DecidableEq

/-- The directory, the processes that save their states to it, and the state
that each of them has last saved. -/
structure Directory (ι : Type) where
  fs : FileSystem FileName String
  phase : ι → Phase
  completed : ι → Option Node

variable {ι : Type} [DecidableEq ι] {files : ι → FileName}

def Directory.advance (directory : Directory ι) (i : ι) (phase : Phase)
    (fs : FileSystem FileName String) : Directory ι :=
  { directory with fs, phase := Function.update directory.phase i phase }

/-- One step of `save_node_state` of the process `i`, whose state path is `files i`. -/
def saveStep (files : ι → FileName) (directory : Directory ι) :
    ι × SaveEvent → Option (Directory ι)
  | (i, event) =>
      match event, directory.phase i with
      | .started node, .idle => some (directory.advance i (.begun node) directory.fs)
      | .created, .begun node =>
          match (files i).withTmp with
          | some tmp =>
              let opened := directory.fs.create tmp
              some (directory.advance i (.writing node opened.1 (writes node)) opened.2)
          -- a directory cannot be created, and the call returns the error
          | none => some (directory.advance i .idle directory.fs)
      | .wrote, .writing node file (line :: rest) =>
          some (directory.advance i (.writing node file rest) (directory.fs.write file line))
      | .synced, .writing node _ [] => some (directory.advance i (.synced node) directory.fs)
      | .renamed, .synced node =>
          match (files i).withTmp.bind fun tmp => directory.fs.rename tmp (files i) with
          | some fs => some { directory.advance i .idle fs with
              completed := Function.update directory.completed i (some node) }
          -- the temporary file is gone, and the call returns the error
          | none => some (directory.advance i .idle directory.fs)
      | .abandoned, _ => some (directory.advance i .idle directory.fs)
      | _, _ => none

abbrev SaveRun (files : ι → FileName) :=
  Run fun directory label directory' => saveStep files directory label = some directory'

structure Unsaved (files : ι → FileName) (directory : Directory ι) : Prop where
  sound : directory.fs.Sound
  idle : ∀ i, directory.phase i = .idle
  nothing : ∀ i, directory.completed i = none
  absent : ∀ i, directory.fs.entry (files i) = none

/-- Each state file is the one that its process has last saved. -/
def Intact (files : ι → FileName) (directory : Directory ι) : Prop :=
  ∀ i, (directory.fs.read (files i)).map String.join =
    (directory.completed i).map saveNodeState

/-- No temporary file is another process's, and none is a state file. -/
structure Apart (files : ι → FileName) : Prop where
  temporary : ∀ i j, i ≠ j → (files i).withTmp = (files j).withTmp → (files i).withTmp = none
  state : ∀ i j, (files i).withTmp ≠ some (files j)

def Underway (fs : FileSystem FileName String) (temporary : Option FileName) : Phase → Prop
  | .idle => True
  | .begun _ => True
  | .writing node file rest => ∃ tmp, temporary = some tmp ∧ fs.entry tmp = some file ∧
      fs.content file ++ rest = writes node
  | .synced node => ∃ tmp, temporary = some tmp ∧ fs.read tmp = some (writes node)

theorem Underway.untouched {fs fs' : FileSystem FileName String} {temporary : Option FileName}
    {phase : Phase} (underway : Underway fs temporary phase)
    (untouched : ∀ tmp, temporary = some tmp → FileSystem.Untouched tmp fs fs') :
    Underway fs' temporary phase := by
  cases phase with
  | idle => trivial
  | begun => trivial
  | writing node file rest =>
      obtain ⟨tmp, isTmp, found, written⟩ := underway
      have same := untouched tmp isTmp
      exact ⟨tmp, isTmp, same.1.trans found, by rw [same.2 file found, written]⟩
  | synced node =>
      obtain ⟨tmp, isTmp, written⟩ := underway
      exact ⟨tmp, isTmp, (untouched tmp isTmp).read.trans written⟩

/-- The invariant of saves whose files are apart. -/
structure Orderly (files : ι → FileName) (directory : Directory ι) : Prop where
  sound : directory.fs.Sound
  underway : ∀ i, Underway directory.fs (files i).withTmp (directory.phase i)
  saved : ∀ i, directory.fs.read (files i) = (directory.completed i).map writes

namespace Orderly

variable {directory : Directory ι} {i : ι}

omit [DecidableEq ι] in
theorem intact (orderly : Orderly files directory) : Intact files directory := by
  intro i
  rw [orderly.saved i, Option.map_map]
  rfl

omit [DecidableEq ι] in
theorem of_unsaved (unsaved : Unsaved files directory) : Orderly files directory where
  sound := unsaved.sound
  underway i := by
    rw [unsaved.idle i]
    trivial
  saved i := by
    rw [unsaved.nothing i, FileSystem.read, unsaved.absent i]
    rfl

omit [DecidableEq ι] in
theorem ne_of_withTmp {path tmp : FileName} (isTmp : (files i).withTmp = some tmp)
    (other : (files i).withTmp ≠ some path) : path ≠ tmp := by
  rintro rfl
  exact other isTmp

omit [DecidableEq ι] in
theorem tmp_ne (apart : Apart files) {i j : ι} (other : j ≠ i) {tmp : FileName}
    (isTmp : (files j).withTmp = some tmp) : (files i).withTmp ≠ some tmp := by
  intro same
  cases isTmp.symm.trans (apart.temporary j i other (isTmp.trans same.symm))

/-- Going on may touch the process's own temporary file and nothing else. -/
theorem advance {fs : FileSystem FileName String} {phase : Phase} (apart : Apart files)
    (orderly : Orderly files directory) (sound : fs.Sound)
    (underway : Underway fs (files i).withTmp phase)
    (untouched : ∀ path, (files i).withTmp ≠ some path →
      FileSystem.Untouched path directory.fs fs) :
    Orderly files (directory.advance i phase fs) where
  sound := sound
  underway j := by
    change Underway fs _ (Function.update directory.phase i phase j)
    by_cases same : j = i
    · subst same
      rw [Function.update_self]
      exact underway
    · rw [Function.update_of_ne same]
      exact (orderly.underway j).untouched fun tmp isTmp => untouched tmp (tmp_ne apart same isTmp)
  saved j := (untouched _ (apart.state i j)).read.trans (orderly.saved j)

theorem renamed {fs : FileSystem FileName String} {node : Node} (apart : Apart files)
    (distinct : Function.Injective files) (orderly : Orderly files directory)
    (synced : directory.phase i = .synced node) {tmp : FileName}
    (isTmp : (files i).withTmp = some tmp) (rename : directory.fs.rename tmp (files i) = some fs) :
    Orderly files { directory.advance i .idle fs with
      completed := Function.update directory.completed i (some node) } where
  sound := orderly.sound.rename rename
  underway j := by
    change Underway fs _ (Function.update directory.phase i .idle j)
    by_cases same : j = i
    · subst same
      rw [Function.update_self]
      trivial
    · rw [Function.update_of_ne same]
      refine (orderly.underway j).untouched fun tmp' isTmp' =>
        FileSystem.untouched_rename rename ?_ ?_
      · rintro rfl
        exact tmp_ne apart same isTmp' isTmp
      · rintro rfl
        exact apart.state j i isTmp'
  saved j := by
    change fs.read (files j) = (Function.update directory.completed i (some node) j).map writes
    have notState : ∀ j, tmp ≠ files j := by
      rintro j rfl
      exact apart.state i j isTmp
    by_cases same : j = i
    · subst same
      have whole := orderly.underway j
      rw [synced] at whole
      obtain ⟨tmp', isTmp', written⟩ := whole
      obtain rfl := Option.some_inj.mp (isTmp.symm.trans isTmp')
      rw [Function.update_self, FileSystem.read_rename (notState j) rename]
      exact written
    · rw [Function.update_of_ne same, ← orderly.saved j]
      exact (FileSystem.untouched_rename rename (notState j).symm
        fun equal => same (distinct equal)).read

theorem step {label : ι × SaveEvent} {directory' : Directory ι} (apart : Apart files)
    (distinct : Function.Injective files) (orderly : Orderly files directory)
    (edge : saveStep files directory label = some directory') : Orderly files directory' := by
  obtain ⟨i, event⟩ := label
  have here := orderly.underway i
  have same : ∀ path, (files i).withTmp ≠ some path →
      FileSystem.Untouched path directory.fs directory.fs := fun _ _ => ⟨rfl, fun _ _ => rfl⟩
  simp only [saveStep] at edge
  split at edge
  · obtain rfl := Option.some.inj edge
    exact orderly.advance apart orderly.sound trivial same
  · split at edge
    · rename_i tmp isTmp
      obtain rfl := Option.some.inj edge
      refine orderly.advance apart (orderly.sound.create _)
        ⟨tmp, isTmp, FileSystem.entry_create_self, ?_⟩ fun path other =>
          FileSystem.untouched_create orderly.sound (ne_of_withTmp isTmp other)
      rw [FileSystem.content_create_self, List.nil_append]
    · obtain rfl := Option.some.inj edge
      exact orderly.advance apart orderly.sound trivial same
  · rename_i node file line rest phase
    obtain rfl := Option.some.inj edge
    rw [phase] at here
    obtain ⟨tmp, isTmp, found, written⟩ := here
    refine orderly.advance apart (orderly.sound.write _ _) ⟨tmp, isTmp, found, ?_⟩
      fun path other =>
        FileSystem.untouched_write orderly.sound found (ne_of_withTmp isTmp other) _
    rw [FileSystem.content_write_self, List.append_assoc]
    exact written
  · rename_i node file phase
    obtain rfl := Option.some.inj edge
    rw [phase] at here
    obtain ⟨tmp, isTmp, found, written⟩ := here
    refine orderly.advance apart orderly.sound ⟨tmp, isTmp, ?_⟩ same
    rw [List.append_nil] at written
    rw [FileSystem.read, found, Option.map_some, written]
  · rename_i node phase
    split at edge
    · rename_i fs rename
      obtain ⟨tmp, isTmp, rename⟩ := Option.bind_eq_some_iff.mp rename
      obtain rfl := Option.some.inj edge
      exact orderly.renamed apart distinct phase isTmp rename
    · obtain rfl := Option.some.inj edge
      exact orderly.advance apart orderly.sound trivial same
  · obtain rfl := Option.some.inj edge
    exact orderly.advance apart orderly.sound trivial same
  · cases edge

end Orderly

theorem intact_of_apart {first last : Directory ι} {trace : List (Directory ι × ι × SaveEvent)}
    (apart : Apart files) (distinct : Function.Injective files) (unsaved : Unsaved files first)
    (run : SaveRun files first trace last) : Intact files last :=
  (run.invariant (Orderly files) (.of_unsaved unsaved) fun _ _ _ _ orderly edge =>
    orderly.step apart distinct edge).intact

def newDirectory : Directory ι where
  fs := .empty
  phase _ := .idle
  completed _ := none

omit [DecidableEq ι] in
theorem unsaved_newDirectory : Unsaved files newDirectory where
  sound := FileSystem.sound_empty
  idle _ := rfl
  nothing _ := rfl
  absent _ := rfl

variable {directory : Directory ι} {i j : ι} {node : Node} {tmp : FileName}

theorem exists_opened (isTmp : (files i).withTmp = some tmp) (idle : directory.phase i = .idle)
    (node : Node) :
    ∃ trace last file, SaveRun files directory trace last ∧
      last.phase = Function.update directory.phase i (.writing node file (writes node)) ∧
      last.completed = directory.completed ∧ last.fs.read tmp = some [] := by
  have started : saveStep files directory (i, .started node) =
      some (directory.advance i (.begun node) directory.fs) := by
    simp only [saveStep, idle]
  have begun : (directory.advance i (.begun node) directory.fs).phase i = .begun node :=
    Function.update_self _ _ _
  have created : saveStep files (directory.advance i (.begun node) directory.fs) (i, .created) =
      some ((directory.advance i (.begun node) directory.fs).advance i
        (.writing node (directory.fs.create tmp).1 (writes node))
        (directory.fs.create tmp).2) := by
    simp only [saveStep, begun, isTmp]
    rfl
  exact ⟨_, _, _, (Run.tail .refl started).tail created, Function.update_idem _ _ _, rfl,
    FileSystem.read_create_self⟩

theorem exists_written {file : Nat} {rest : List String}
    (phase : directory.phase i = .writing node file rest) :
    ∃ trace last, SaveRun files directory trace last ∧
      last.phase = Function.update directory.phase i (.synced node) := by
  induction rest generalizing directory with
  | nil =>
      have synced : saveStep files directory (i, .synced) =
          some (directory.advance i (.synced node) directory.fs) := by
        simp only [saveStep, phase]
      exact ⟨_, _, Run.tail .refl synced, rfl⟩
  | cons line rest ih =>
      have wrote : saveStep files directory (i, .wrote) = some (directory.advance i
          (.writing node file rest) (directory.fs.write file line)) := by
        simp only [saveStep, phase]
      have onwards : (directory.advance i (.writing node file rest)
          (directory.fs.write file line)).phase i = .writing node file rest :=
        Function.update_self _ _ _
      obtain ⟨trace, last, run, phases⟩ := ih onwards
      exact ⟨_, last, (Run.tail .refl wrote).trans run,
        phases.trans (Function.update_idem _ _ _)⟩

theorem exists_synced (isTmp : (files i).withTmp = some tmp) (idle : directory.phase i = .idle)
    (node : Node) : ∃ trace last, SaveRun files directory trace last ∧
      last.phase = Function.update directory.phase i (.synced node) := by
  obtain ⟨opening, opened, file, openingRun, openedPhases, -, -⟩ := exists_opened isTmp idle node
  have phase : opened.phase i = .writing node file (writes node) := by
    rw [openedPhases, Function.update_self]
  obtain ⟨writing, written, writingRun, writtenPhases⟩ := exists_written phase
  refine ⟨_, written, openingRun.trans writingRun, ?_⟩
  rw [writtenPhases, openedPhases, Function.update_idem]

theorem saveNodeState_ne_empty (node : Node) : saveNodeState node ≠ "" := by
  intro empty
  have length := congrArg (fun content => content.toList.length) empty
  simp [saveNodeState, writes, stateLines] at length

theorem not_intact_of_state (shared : (files i).withTmp = some (files j)) :
    ∃ trace last, SaveRun files newDirectory trace last ∧ ¬ Intact files last := by
  have idle : (newDirectory : Directory ι).phase i = .idle := rfl
  obtain ⟨trace, last, file, run, -, completed, emptied⟩ := exists_opened shared idle ⟨"", ∅, ∅⟩
  refine ⟨trace, last, run, fun intact => ?_⟩
  have here := intact j
  rw [emptied, completed] at here
  cases here

theorem exists_renamed_empty (synced : directory.phase i = .synced node)
    (isTmp : (files i).withTmp = some tmp) (apart : tmp ≠ files i)
    (emptied : directory.fs.read tmp = some []) :
    ∃ directory', saveStep files directory (i, .renamed) = some directory' ∧
      ¬ Intact files directory' := by
  obtain ⟨fs, rename, empty⟩ := FileSystem.exists_rename apart emptied
  have renamed : saveStep files directory (i, .renamed) = some { directory.advance i .idle fs with
      completed := Function.update directory.completed i (some node) } := by
    simp only [saveStep, synced, isTmp, Option.bind_some, rename]
  refine ⟨_, renamed, fun intact => ?_⟩
  have here := intact i
  change (fs.read (files i)).map _ = (Function.update directory.completed i _ i).map _ at here
  rw [empty, Function.update_self, Option.map_some, Option.map_some, Option.some_inj] at here
  exact saveNodeState_ne_empty node here.symm

/-- A call that opens its temporary file empties the one that another call is
about to rename. -/
theorem not_intact_of_temporary (other : j ≠ i) (isTmp : (files i).withTmp = some tmp)
    (shared : (files j).withTmp = some tmp) (apart : tmp ≠ files i) :
    ∃ trace last, SaveRun files newDirectory trace last ∧ ¬ Intact files last := by
  have idle : (newDirectory : Directory ι).phase i = .idle := rfl
  obtain ⟨saving, saved, savingRun, savedPhases⟩ := exists_synced isTmp idle ⟨"", ∅, ∅⟩
  have idle' : saved.phase j = .idle := by
    rw [savedPhases, Function.update_of_ne other]
    rfl
  obtain ⟨opening, opened, file, openingRun, openedPhases, -, emptied⟩ :=
    exists_opened shared idle' ⟨"", ∅, ∅⟩
  have synced : opened.phase i = .synced ⟨"", ∅, ∅⟩ := by
    rw [openedPhases, Function.update_of_ne other.symm, savedPhases, Function.update_self]
  obtain ⟨last, renamed, notIntact⟩ := exists_renamed_empty synced isTmp apart emptied
  exact ⟨_, last, (savingRun.trans openingRun).tail renamed, notIntact⟩

/-- State files that have distinct names are intact in every run if and only if
their temporary files are apart too. -/
theorem saves_intact_iff (files : ι → FileName) (distinct : Function.Injective files) :
    (∀ first trace last, Unsaved files first → SaveRun files first trace last →
      Intact files last) ↔ Apart files := by
  refine ⟨fun always => ?_, fun apart first trace last unsaved run =>
    intact_of_apart apart distinct unsaved run⟩
  have state : ∀ i j, (files i).withTmp ≠ some (files j) := by
    intro i j shared
    obtain ⟨trace, last, run, notIntact⟩ := not_intact_of_state shared
    exact notIntact (always _ trace last unsaved_newDirectory run)
  refine ⟨fun i j other shared => Option.eq_none_iff_forall_ne_some.mpr fun tmp isTmp => ?_,
    state⟩
  have notState : tmp ≠ files i := fun isState => state i i (isState ▸ isTmp)
  obtain ⟨trace, last, run, notIntact⟩ :=
    not_intact_of_temporary other.symm isTmp (shared.symm.trans isTmp) notState
  exact notIntact (always _ trace last unsaved_newDirectory run)

def ownFiles : Bool → FileName
  | false => ⟨"N1.state", by decide⟩
  | true => ⟨"N2.state", by decide⟩

theorem saves_intact_own : Function.Injective ownFiles ∧
    ∀ first trace last, Unsaved ownFiles first → SaveRun ownFiles first trace last →
      Intact ownFiles last := by
  have distinct : Function.Injective ownFiles := by decide
  refine ⟨distinct, (saves_intact_iff ownFiles distinct).mpr ⟨?_, ?_⟩⟩
  · decide
  · decide

/-- The state files of two nodes, the names of which differ after the dot. -/
def numberedFiles : Bool → FileName
  | false => ⟨"node.1", by decide⟩
  | true => ⟨"node.2", by decide⟩

/-- The second node empties `node.tmp`, which the first renames to `node.1`. -/
def crossingSaves : List (Bool × SaveEvent) :=
  [(false, .started ⟨"N1", ∅, ∅⟩), (false, .created), (false, .wrote), (false, .synced),
    (true, .started ⟨"N2", ∅, ∅⟩), (true, .created), (false, .renamed)]

theorem crossing_saves_not_intact :
    Function.Injective numberedFiles ∧ Unsaved numberedFiles newDirectory ∧
      ∃ trace last, SaveRun numberedFiles newDirectory trace last ∧
        trace.map Prod.snd = crossingSaves ∧
        last.completed false = some ⟨"N1", ∅, ∅⟩ ∧
        last.fs.read (numberedFiles false) = some [] ∧ ¬ Intact numberedFiles last := by
  obtain ⟨followed, follows, completed, read⟩ :
      ∃ followed, follow (saveStep numberedFiles) newDirectory crossingSaves = some followed ∧
        followed.2.completed false = some ⟨"N1", ∅, ∅⟩ ∧
        followed.2.fs.read (numberedFiles false) = some [] :=
    ⟨_, rfl, rfl, rfl⟩
  obtain ⟨run, labels⟩ := run_of_follow follows
  refine ⟨by decide, unsaved_newDirectory, _, _, run, labels, completed, read, fun intact => ?_⟩
  have here := intact false
  rw [read, completed, Option.map_some, Option.map_some, Option.some_inj] at here
  exact saveNodeState_ne_empty _ here.symm

end Persistence

end HabiCore
