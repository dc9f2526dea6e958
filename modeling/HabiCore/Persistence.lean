import HabiCore.DebugFormat
import HabiCore.Node
import HabiCore.TextLines

/-!
# State files

A state file has one line for the node's id, one for each bearer of its ledger
and one for each bearer of its spent set.  Names are written as they are, and
read up to the end of the line.
-/

namespace HabiCore

structure PersistenceError where
  detail : String
  deriving DecidableEq

namespace Persistence

def tagged (tag name : String) : String :=
  tag ++ "|" ++ name

def stateLines (node : Node) : List String :=
  tagged "NODE_ID" node.nodeId ::
    ((sorted node.ledger).map (tagged "LEDGER") ++ (sorted node.spent).map (tagged "SPENT"))

/-- What `writeln!` writes, call by call. -/
def writes (node : Node) : List String :=
  (stateLines node).map (· ++ "\n")

/-- The contents of the file that `save_node_state` leaves at its path. -/
def saveNodeState (node : Node) : String :=
  String.join (writes node)

/-- `BufRead::lines` -/
def lines (content : String) : List String :=
  (TextLines.lines '\n' '\r' content.toList).map String.ofList

/-- `line.splitn(2, '|')`, a missing part being empty -/
def splitTag (line : String) : String × String :=
  (String.ofList (line.toList.takeWhile (· ≠ '|')),
    String.ofList ((line.toList.dropWhile (· ≠ '|')).drop 1))

structure Loading where
  nodeId : Option String
  ledger : Finset String
  spent : Finset String

def readLine (path : String) (found : Loading) (line : String) :
    Except PersistenceError Loading :=
  if line = "" then
    .ok found
  else
    match splitTag line with
    | ("NODE_ID", value) => .ok { found with nodeId := some value }
    | ("LEDGER", value) => .ok { found with ledger := insert value found.ledger }
    | ("SPENT", value) => .ok { found with spent := insert value found.spent }
    | (other, _) => .error ⟨"unrecognized line tag " ++ DebugFormat.string other ++ " in " ++
        DebugFormat.string path⟩

/-- Load the state from the file at the path, if there is one. -/
def loadNodeState (path : String) : Option String → Except PersistenceError (Option Node)
  | none => .ok none
  | some content => do
      let found ← (lines content).foldlM (readLine path) ⟨none, ∅, ∅⟩
      match found.nodeId with
      | some nodeId => .ok (some ⟨nodeId, found.ledger, found.spent⟩)
      | none => .error ⟨"state file " ++ DebugFormat.string path ++ " missing NODE_ID line"⟩

end Persistence

namespace Node

def names (node : Node) : Finset String :=
  insert node.nodeId (node.ledger ∪ node.spent)

theorem forall_mem_names {node : Node} {p : String → Prop} :
    (∀ name ∈ node.names, p name) ↔
      p node.nodeId ∧ (∀ b ∈ node.ledger, p b) ∧ ∀ b ∈ node.spent, p b := by
  simp only [names, Finset.forall_mem_insert, Finset.mem_union, or_imp, forall_and]

end Node

namespace Persistence

/-- A name as it is read from its line. -/
def readName (name : String) : String :=
  String.ofList (TextLines.chomp '\r' name.toList)

def EndsInReturn (name : String) : Prop :=
  name.toList.getLast? = some '\r'

theorem readName_eq_self_iff {name : String} : readName name = name ↔ ¬ EndsInReturn name := by
  rw [readName, ← String.toList_inj, String.toList_ofList, TextLines.chomp_eq_self_iff]
  rfl

theorem image_readName_eq_self_iff {names : Finset String} :
    names.image readName = names ↔ ∀ name ∈ names, ¬ EndsInReturn name := by
  rw [TextLines.image_eq_self_iff fun name => name.toList.length]
  · simp only [readName_eq_self_iff]
  · intro name changed
    have shorter : TextLines.chomp '\r' name.toList ≠ name.toList := by
      intro same
      exact changed (by rw [readName, same, String.ofList_toList])
    simpa [readName] using TextLines.length_chomp_lt shorter

theorem toList_tagged (tag name : String) :
    (tagged tag name).toList = tag.toList ++ '|' :: name.toList := by
  simp [tagged, String.toList_append]

theorem readName_tagged (tag name : String) :
    readName (tagged tag name) = tagged tag (readName name) := by
  have bar : TextLines.chomp '\r' ('|' :: name.toList) =
      '|' :: TextLines.chomp '\r' name.toList := by
    cases chars : name.toList with
    | nil => decide
    | cons c rest =>
        have grouped : '|' :: c :: rest = ['|'] ++ c :: rest := rfl
        rw [grouped, TextLines.chomp_append (List.cons_ne_nil c rest)]
        rfl
  rw [← String.toList_inj, readName, String.toList_ofList, toList_tagged, toList_tagged,
    TextLines.chomp_append (List.cons_ne_nil _ _), bar, readName, String.toList_ofList]

theorem splitTag_tagged {tag : String} (noBar : '|' ∉ tag.toList) (name : String) :
    splitTag (tagged tag name) = (tag, name) := by
  have before : ∀ c ∈ tag.toList, decide (c ≠ '|') = true := by
    intro c member
    simpa using ne_of_mem_of_not_mem member noBar
  rw [splitTag, toList_tagged, List.takeWhile_append_of_pos before,
    List.dropWhile_append_of_pos before]
  simp [String.ofList_toList]

theorem tagged_ne_empty (tag name : String) : tagged tag name ≠ "" := by
  intro empty
  have chars := congrArg String.toList empty
  rw [toList_tagged] at chars
  simp at chars

theorem toList_saveNodeState (node : Node) :
    (saveNodeState node).toList =
      ((stateLines node).map String.toList).flatMap fun line => line ++ ['\n'] := by
  rw [saveNodeState, writes, String.toList_join, List.flatMap_map, List.flatMap_map]
  simp [String.toList_append]

theorem mem_stateLines {node : Node} {line : String} :
    line ∈ stateLines node ↔ line = tagged "NODE_ID" node.nodeId ∨
      (∃ b ∈ node.ledger, line = tagged "LEDGER" b) ∨
      ∃ b ∈ node.spent, line = tagged "SPENT" b := by
  simp [stateLines, eq_comm]

/-- The lines of a node are read as lines with the names as they are read. -/
theorem lines_saveNodeState {node : Node} (oneLine : ∀ name ∈ node.names, '\n' ∉ name.toList) :
    lines (saveNodeState node) = (stateLines node).map readName := by
  rw [lines, toList_saveNodeState, TextLines.lines_terminated, List.map_map, List.map_map]
  · rfl
  · intro part member
    obtain ⟨line, isLine, rfl⟩ := List.mem_map.mp member
    rcases mem_stateLines.mp isLine with rfl | ⟨b, isHeld, rfl⟩ | ⟨b, isSpent, rfl⟩
    · simpa [toList_tagged] using oneLine node.nodeId (by simp [Node.names])
    · simpa [toList_tagged] using oneLine b (by simp [Node.names, isHeld])
    · simpa [toList_tagged] using oneLine b (by simp [Node.names, isSpent])

section Reading

variable {path : String} {found : Loading}

theorem readLine_nodeId (name : String) :
    readLine path found (tagged "NODE_ID" name) = .ok { found with nodeId := some name } := by
  rw [readLine, if_neg (tagged_ne_empty _ _), splitTag_tagged (by decide)]
  simp

theorem readLine_ledger (name : String) :
    readLine path found (tagged "LEDGER" name) =
      .ok { found with ledger := insert name found.ledger } := by
  rw [readLine, if_neg (tagged_ne_empty _ _), splitTag_tagged (by decide)]
  simp

theorem readLine_spent (name : String) :
    readLine path found (tagged "SPENT" name) =
      .ok { found with spent := insert name found.spent } := by
  rw [readLine, if_neg (tagged_ne_empty _ _), splitTag_tagged (by decide)]
  simp

variable (path) in
theorem foldlM_tagged {tag : String} (found : Finset String → Loading)
    (reads : ∀ read name, readLine path (found read) (tagged tag name) =
      .ok (found (insert name read))) (names : List String) (read : Finset String) :
    (names.map (tagged tag)).foldlM (readLine path) (found read) =
      .ok (found (names.toFinset ∪ read)) := by
  induction names generalizing read with
  | nil => simp [pure, Except.pure]
  | cons name rest ih =>
      rw [List.map_cons, List.foldlM_cons, reads]
      change (rest.map (tagged tag)).foldlM (readLine path) _ = _
      rw [ih]
      simp [Finset.union_insert, Finset.insert_union]

end Reading

/-- A saved node is loaded with its names as they are read. -/
theorem loadNodeState_saveNodeState (path : String) {node : Node}
    (oneLine : ∀ name ∈ node.names, '\n' ∉ name.toList) :
    loadNodeState path (some (saveNodeState node)) =
      .ok (some ⟨readName node.nodeId, node.ledger.image readName,
        node.spent.image readName⟩) := by
  have asRead : ∀ (tag : String) (names : Finset String),
      ((sorted names).map (tagged tag)).map readName =
        ((sorted names).map readName).map (tagged tag) := by
    intro tag names
    simp [readName_tagged]
  have readNames : ∀ names : Finset String,
      ((sorted names).map readName).toFinset = names.image readName := by
    intro names
    ext name
    simp
  have found : (lines (saveNodeState node)).foldlM (readLine path) ⟨none, ∅, ∅⟩ =
      .ok ⟨some (readName node.nodeId), node.ledger.image readName,
        node.spent.image readName⟩ := by
    rw [lines_saveNodeState oneLine, stateLines, List.map_cons, readName_tagged, List.map_append,
      asRead, asRead, List.foldlM_cons, readLine_nodeId]
    have ledgerRead := foldlM_tagged path (Loading.mk (some (readName node.nodeId)) · ∅)
      (fun _ name => readLine_ledger name) ((sorted node.ledger).map readName) ∅
    have spentRead := foldlM_tagged path
      (Loading.mk (some (readName node.nodeId)) (node.ledger.image readName))
      (fun _ name => readLine_spent name) ((sorted node.spent).map readName) ∅
    rw [readNames, Finset.union_empty] at ledgerRead spentRead
    change List.foldlM (readLine path) _ _ = _
    rw [List.foldlM_append, ledgerRead]
    exact spentRead
  rw [loadNodeState, found]
  rfl

/-- The round trip.  A saved node is loaded as it was exactly if none of its
names ends in a carriage return. -/
theorem load_save_iff (path : String) (node : Node)
    (oneLine : ∀ name ∈ node.names, '\n' ∉ name.toList) :
    loadNodeState path (some (saveNodeState node)) = .ok (some node) ↔
      ∀ name ∈ node.names, ¬ EndsInReturn name := by
  rw [loadNodeState_saveNodeState path oneLine]
  obtain ⟨nodeId, ledger, spent⟩ := node
  rw [Except.ok.injEq, Option.some.injEq, Node.mk.injEq, readName_eq_self_iff,
    image_readName_eq_self_iff, image_readName_eq_self_iff, Node.forall_mem_names]

/-- Names that look like other lines, and a return within a name, are kept. -/
theorem load_save_iff_strange :
    loadNodeState "N1.state" (some (saveNodeState ⟨"", {"SPENT|b1", "a\rb", ""}, {"LEDGER"}⟩)) =
      .ok (some ⟨"", {"SPENT|b1", "a\rb", ""}, {"LEDGER"}⟩) := by
  apply (load_save_iff _ _ _).mpr
  · simp [Node.names, EndsInReturn]
  · simp [Node.names]

/-- A bearer whose name ends in a carriage return, as one seeded by a client that
ends its lines with it, comes back under another name. -/
theorem name_lost_on_load :
    (∀ name ∈ (⟨"N1", {"b1\r"}, ∅⟩ : Node).names, '\n' ∉ name.toList) ∧
      loadNodeState "N1.state" (some (saveNodeState ⟨"N1", {"b1\r"}, ∅⟩)) ≠
        .ok (some ⟨"N1", {"b1\r"}, ∅⟩) := by
  have oneLine : ∀ name ∈ (⟨"N1", {"b1\r"}, ∅⟩ : Node).names, '\n' ∉ name.toList := by
    simp [Node.names]
  refine ⟨oneLine, fun loaded => ?_⟩
  rw [loadNodeState_saveNodeState _ oneLine, Except.ok.injEq, Option.some.injEq,
    Node.mk.injEq] at loaded
  have kept := image_readName_eq_self_iff.mp loaded.2.1 "b1\r" (by simp)
  exact kept (by simp [EndsInReturn])

end Persistence

end HabiCore
