import HabiCore.Deployment
import HabiCore.SocketLines

/-!
# The peers file

All nodes read one file, which has the id and the address of every node on a
line of its own.  A node leaves out its own entry, blank lines and lines on
which something is missing; the last of several lines for one id counts.
-/

namespace HabiCore

open WireFormat SocketLines

namespace PeersFile

/-- `str::trim` -/
def trim (s : String) : String :=
  String.ofList (TextLines.strip isWhitespace s.toList)

def entryOfLine (line : String) : Option (String × String) :=
  let line := trim line
  if line = "" then
    none
  else
    let parts := Persistence.splitTag line
    let id := trim parts.1
    let addr := trim parts.2
    if id = "" ∨ addr = "" then none else some (id, addr)

def readLine (selfId : String) (map : StringMap String) (line : String) : StringMap String :=
  match entryOfLine line with
  | none => map
  | some (id, addr) => if id = selfId then map else map.insert id addr

def parsePeersFile (content selfId : String) : StringMap String :=
  (Persistence.lines content).foldl (readLine selfId) ∅

def entries (content : String) : List (String × String) :=
  (Persistence.lines content).filterMap entryOfLine

variable {selfId id addr : String}

theorem foldl_readLine (lines : List String) (map : StringMap String) :
    lines.foldl (readLine selfId) map =
      (lines.filterMap entryOfLine).foldl
        (fun map entry => if entry.1 = selfId then map else map.insert entry.1 entry.2) map := by
  induction lines generalizing map with
  | nil => rfl
  | cons line rest ih =>
      rw [List.foldl_cons, ih, List.filterMap_cons]
      cases isEntry : entryOfLine line <;> simp [readLine, isEntry]

def lastAddr (listed : List (String × String)) (id : String) : Option String :=
  (listed.reverse.find? fun entry => entry.1 = id).map Prod.snd

theorem lookup_foldl (listed : List (String × String)) (id : String) :
    (listed.foldl (fun map entry =>
      if entry.1 = selfId then map else map.insert entry.1 entry.2) (∅ : StringMap String)).lookup
        id = if id = selfId then none else lastAddr listed id := by
  induction listed using List.reverseRecOn with
  | nil => simp [lastAddr]
  | append_singleton rest entry ih =>
      rw [List.foldl_append, List.foldl_cons, List.foldl_nil]
      by_cases isSelf : entry.1 = selfId
      · rw [if_pos isSelf, ih]
        split
        · rfl
        · rename_i other
          have differs : entry.1 ≠ id := fun same => other (same.symm.trans isSelf)
          simp [lastAddr, differs]
      · rw [if_neg isSelf]
        by_cases same : id = entry.1
        · subst same
          simp [lastAddr, isSelf]
        · rw [Finmap.lookup_insert_of_ne _ same, ih]
          simp [lastAddr, Ne.symm same]

/-- What a node reads from its peers file: for every other id the address in the
last entry for it. -/
theorem lookup_parsePeersFile (content selfId id : String) :
    (parsePeersFile content selfId).lookup id =
      if id = selfId then none else lastAddr (entries content) id := by
  rw [parsePeersFile, foldl_readLine, lookup_foldl]
  rfl

theorem lastAddr_eq_some {listed : List (String × String)} {addr : String}
    (found : lastAddr listed id = some addr) : (id, addr) ∈ listed := by
  obtain ⟨⟨id', addr'⟩, isLast, rfl⟩ := Option.map_eq_some_iff.mp found
  obtain rfl : id' = id := by simpa using List.find?_some isLast
  exact List.mem_reverse.mp (List.mem_of_find?_eq_some isLast)

theorem lastAddr_isSome {listed : List (String × String)} (listedId : (id, addr) ∈ listed) :
    (lastAddr listed id).isSome := by
  rw [lastAddr, Option.isSome_map, List.find?_isSome]
  exact ⟨(id, addr), List.mem_reverse.mpr listedId, by simp⟩

/-- A text that is not empty and has no blank at either end. -/
structure Plain (name : String) : Prop where
  trimmed : trim name = name
  nonempty : name ≠ ""

theorem trim_eq_self_iff {s : String} :
    trim s = s ↔ TextLines.strip isWhitespace s.toList = s.toList := by
  rw [trim, ← String.toList_inj, String.toList_ofList]

theorem trim_padded {left s right : String} (before : isBlank left) (after : isBlank right) :
    trim (left ++ s ++ right) = trim s := by
  rw [trim, String.toList_append, String.toList_append,
    TextLines.strip_padded (List.all_eq_true.mp before) (List.all_eq_true.mp after), trim]

theorem trim_readName (line : String) : trim (Persistence.readName line) = trim line := by
  unfold Persistence.readName
  by_cases ends : line.toList.getLast? = some '\r'
  · obtain ⟨init, isLine⟩ := List.getLast?_eq_some_iff.mp ends
    rw [TextLines.chomp_of_ends ends, isLine, List.dropLast_concat]
    have padded : trim ("" ++ String.ofList init ++ "\r") = trim (String.ofList init) :=
      trim_padded rfl (by decide)
    rw [← padded]
    congr 1
    rw [← String.toList_inj, isLine]
    simp
  · rw [TextLines.chomp_eq_self_iff.mpr ends, String.ofList_toList]

theorem trim_between {name addr : String} (first : Plain name) (last : Plain addr)
    (inner : String) : trim (name ++ inner ++ addr) = name ++ inner ++ addr := by
  obtain ⟨front, -⟩ := TextLines.strip_eq_self_iff.mp (trim_eq_self_iff.mp first.trimmed)
  obtain ⟨-, back⟩ := TextLines.strip_eq_self_iff.mp (trim_eq_self_iff.mp last.trimmed)
  rw [trim_eq_self_iff, TextLines.strip_eq_self_iff]
  constructor
  · intro c isHead
    apply front c
    cases chars : name.toList with
    | nil => exact absurd (String.toList_inj.mp chars) first.nonempty
    | cons d rest => simpa [String.toList_append, chars] using isHead
  · intro c isLast
    apply back c
    have nonempty : addr.toList ≠ [] := fun empty => last.nonempty (String.toList_inj.mp empty)
    obtain ⟨d, isEnd⟩ := Option.isSome_iff_exists.mp (List.getLast?_isSome.mpr nonempty)
    rw [isEnd]
    simpa [String.toList_append, isEnd] using isLast

/-- The line has the entry on it, with blanks around the id and the address. -/
def Enters (line id addr : String) : Prop :=
  ∃ left inner inner' right, isBlank left ∧ isBlank inner ∧ isBlank inner' ∧ isBlank right ∧
    line = left ++ (id ++ (inner ++ "|" ++ inner') ++ addr) ++ right

theorem not_mem_of_isBlank {s : String} (blank : isBlank s) : '|' ∉ s.toList := by
  intro member
  exact absurd (List.all_eq_true.mp blank _ member) (by decide)

theorem entryOfLine_of_enters {line : String} (isId : Plain id) (isAddr : Plain addr)
    (noBar : '|' ∉ id.toList) (enters : Enters line id addr) :
    entryOfLine line = some (id, addr) := by
  obtain ⟨left, inner, inner', right, before, after, before', after', rfl⟩ := enters
  have middle : id ++ (inner ++ "|" ++ inner') ++ addr =
      Persistence.tagged (id ++ inner) (inner' ++ addr) := by
    simp [Persistence.tagged, String.append_assoc]
  have noBar' : '|' ∉ (id ++ inner).toList := by
    simpa [String.toList_append, noBar] using not_mem_of_isBlank after
  have readsId : trim (id ++ inner) = id := by
    have padded : trim ("" ++ id ++ inner) = trim id := trim_padded rfl after
    simpa [isId.trimmed] using padded
  have readsAddr : trim (inner' ++ addr) = addr := by
    have padded : trim (inner' ++ addr ++ "") = trim addr := trim_padded before' rfl
    simpa [isAddr.trimmed] using padded
  simp only [entryOfLine]
  rw [trim_padded before after', trim_between isId isAddr, middle,
    if_neg (Persistence.tagged_ne_empty _ _), Persistence.splitTag_tagged noBar', readsId,
    readsAddr, if_neg (not_or.mpr ⟨isId.nonempty, isAddr.nonempty⟩)]

theorem entryOfLine_readName (line : String) :
    entryOfLine (Persistence.readName line) = entryOfLine line := by
  rw [entryOfLine, trim_readName, entryOfLine]

def text (lines : List String) : String :=
  String.join (lines.map (· ++ "\n"))

/-- The entries of a file are those of its lines. -/
theorem entries_text {lines : List String} (oneLine : ∀ line ∈ lines, '\n' ∉ line.toList) :
    entries (text lines) = lines.filterMap entryOfLine := by
  have chars : (text lines).toList =
      (lines.map String.toList).flatMap fun line => line ++ ['\n'] := by
    rw [text, String.toList_join, List.flatMap_map, List.flatMap_map]
    simp [String.toList_append]
  have split : Persistence.lines (text lines) = lines.map Persistence.readName := by
    rw [Persistence.lines, chars, TextLines.lines_terminated, List.map_map, List.map_map]
    · rfl
    · intro part member
      obtain ⟨line, isLine, rfl⟩ := List.mem_map.mp member
      exact oneLine line isLine
  have same : entryOfLine ∘ Persistence.readName = entryOfLine := by
    funext line
    rw [Function.comp_apply, entryOfLine_readName]
  rw [entries, split, List.filterMap_map, same]

/-- The lines have the listed entries on them, in this order; the node that
reads them skips the others. -/
inductive Renders : List String → List (String × String) → Prop
  | nil : Renders [] []
  | entry {line id addr lines listed} (isId : Plain id) (isAddr : Plain addr)
      (noBar : '|' ∉ id.toList) (enters : Enters line id addr) (rest : Renders lines listed) :
      Renders (line :: lines) ((id, addr) :: listed)
  | skipped {line lines listed} (missing : entryOfLine line = none)
      (rest : Renders lines listed) : Renders (line :: lines) listed

theorem Renders.filterMap {lines : List String} {listed : List (String × String)}
    (rendered : Renders lines listed) : lines.filterMap entryOfLine = listed := by
  induction rendered with
  | nil => rfl
  | entry isId isAddr noBar enters rest ih =>
      rw [List.filterMap_cons, entryOfLine_of_enters isId isAddr noBar enters, ih]
  | skipped missing rest ih => rw [List.filterMap_cons, missing, ih]

def mapOf (listed : List (String × String)) : StringMap String :=
  (listed.reverse.map fun entry => (⟨entry.1, entry.2⟩ : Sigma fun _ : String => String)).toFinmap

theorem lookup_mapOf (listed : List (String × String)) (id : String) :
    (mapOf listed).lookup id = lastAddr listed id := by
  rw [mapOf, Finmap.dlookup_list_toFinmap, lastAddr]
  induction listed.reverse with
  | nil => rfl
  | cons entry rest ih =>
      rw [List.map_cons, List.find?_cons]
      by_cases same : entry.1 = id
      · subst same
        simp
      · have skips := List.dlookup_cons_ne
          (rest.map fun entry => (⟨entry.1, entry.2⟩ : Sigma fun _ : String => String))
          ⟨entry.1, entry.2⟩ (Ne.symm same)
        rw [skips, ih]
        simp [same]

/-- A node reads the listed entries but its own, however the lines are padded and
whatever malformed lines stand between them. -/
theorem parsePeersFile_text {lines : List String} {listed : List (String × String)}
    (oneLine : ∀ line ∈ lines, '\n' ∉ line.toList) (rendered : Renders lines listed)
    (selfId : String) : parsePeersFile (text lines) selfId = (mapOf listed).erase selfId := by
  apply Finmap.ext_lookup
  intro id
  rw [lookup_parsePeersFile, entries_text oneLine, rendered.filterMap]
  by_cases isSelf : id = selfId
  · subst isSelf
    rw [if_pos rfl, Finmap.lookup_erase]
  · rw [if_neg isSelf, Finmap.lookup_erase_ne isSelf, lookup_mapOf]

/-- An entry that is listed again, a line without an address, and blanks: the
node b reads only the later address of a. -/
theorem parsePeersFile_text_relisted :
    parsePeersFile (text ["a|host-1", "a|", "", " b | host-b\r", "\ta |host-2"]) "b" =
      (mapOf [("a", "host-1"), ("b", "host-b"), ("a", "host-2")]).erase "b" := by
  have plain : Plain "a" ∧ Plain "b" ∧ Plain "host-1" ∧ Plain "host-b" ∧ Plain "host-2" :=
    ⟨⟨by decide +kernel, by decide⟩, ⟨by decide +kernel, by decide⟩,
      ⟨by decide +kernel, by decide⟩, ⟨by decide +kernel, by decide⟩,
      ⟨by decide +kernel, by decide⟩⟩
  obtain ⟨isA, isB, isHost₁, isHostB, isHost₂⟩ := plain
  have rendered : Renders ["a|host-1", "a|", "", " b | host-b\r", "\ta |host-2"]
      [("a", "host-1"), ("b", "host-b"), ("a", "host-2")] := by
    refine .entry isA isHost₁ (by decide) ⟨"", "", "", "", rfl, rfl, rfl, rfl, by decide⟩ ?_
    refine .skipped (by decide +kernel) (.skipped (by decide +kernel) ?_)
    refine .entry isB isHostB (by decide)
      ⟨" ", " ", " ", "\r", by decide, by decide, by decide, by decide, by decide⟩ ?_
    refine .entry isA isHost₂ (by decide)
      ⟨"\t", " ", "", "", by decide, by decide, rfl, rfl, by decide⟩ .nil
  exact parsePeersFile_text (by decide) rendered "b"

end PeersFile

namespace Deployment

open PeersFile

variable {ι : Type} {D : Deployment ι} {nodeId : ι → String} {content : String}

def ReadsPeers (D : Deployment ι) (nodeId : ι → String) (content : String) : Prop :=
  ∀ i, (D.peers i).toFinmap = parsePeersFile content (nodeId i)

theorem ReadsPeers.lookup (reads : D.ReadsPeers nodeId content) (i : ι) (id : String) :
    (D.peers i).lookup id = if id = nodeId i then none else lastAddr (entries content) id := by
  rw [← Finmap.lookup_toFinmap, reads i, lookup_parsePeersFile]

/-- Nodes that read one file are configured exactly if the last entry for each of
them has an address at which it listens and there is no entry for anybody else. -/
theorem configured_iff_entries [Nontrivial ι] (distinct : Function.Injective nodeId)
    (reads : D.ReadsPeers nodeId content) :
    Configured D nodeId ↔
      (∀ j, ∃ addr, lastAddr (entries content) (nodeId j) = some addr ∧
        D.listener addr = some j) ∧
      ∀ entry ∈ entries content, ∃ j, entry.1 = nodeId j := by
  constructor
  · intro configured
    constructor
    · intro j
      obtain ⟨i, other⟩ := exists_ne j
      obtain ⟨addr, found, listening⟩ := configured.lookup (Ne.symm other)
      rw [reads.lookup, if_neg fun same => other (distinct same).symm] at found
      exact ⟨addr, found, listening⟩
    · rintro ⟨id, addr⟩ listed
      by_contra unknown
      obtain ⟨i, -⟩ := exists_pair_ne ι
      obtain ⟨addr', isLast⟩ := Option.isSome_iff_exists.mp (lastAddr_isSome listed)
      have found : (D.peers i).lookup id = some addr' := by
        rw [reads.lookup, if_neg fun same => unknown ⟨i, same⟩, isLast]
      obtain ⟨j, -, named, -⟩ := configured.only_listed i id addr' found
      exact unknown ⟨j, named⟩
  · rintro ⟨located, known⟩
    refine ⟨distinct, fun i j other => ?_, fun i id addr found => ?_⟩
    · obtain ⟨addr, isLast, -⟩ := located j
      rw [← AList.lookup_isSome, reads.lookup, if_neg fun same => other (distinct same), isLast]
      rfl
    · rw [reads.lookup] at found
      split at found
      · exact absurd found (by simp)
      · rename_i notSelf
        obtain ⟨j, named⟩ := known (id, addr) (lastAddr_eq_some found)
        obtain ⟨addr', isLast, listening⟩ := located j
        have same : addr' = addr :=
          Option.some_inj.mp (isLast.symm.trans ((congrArg _ named.symm).trans found))
        subst same
        exact ⟨j, fun own => notSelf (named.trans (congrArg nodeId own)), named, listening⟩

theorem configured_iff_entries_pair :
    (cluster ["a", "b"]).ReadsPeers ["a", "b"].get "b|host-b\n a | host-a\n" ∧
      Configured (cluster ["a", "b"]) ["a", "b"].get := by
  have reads : (cluster ["a", "b"]).ReadsPeers ["a", "b"].get "b|host-b\n a | host-a\n" := by
    unfold ReadsPeers
    decide +kernel
  have several : Nontrivial (Fin ["a", "b"].length) := inferInstanceAs (Nontrivial (Fin 2))
  refine ⟨reads, (configured_iff_entries (by decide +kernel) reads).mpr ⟨?_, ?_⟩⟩
  · intro j
    exact ⟨"host-" ++ ["a", "b"].get j, by revert j; decide +kernel, by revert j; decide +kernel⟩
  · decide +kernel

end Deployment

end HabiCore
