import HabiCore.Deployment
import HabiCore.EncodedMessages
import HabiCore.Persistence
import HabiCore.RelayedMessages

/-!
# Lines on sockets

What a node reads from a connection is a line of text, and what it writes is a
line of text.  A connection that is closed without a line is read as an empty
one, and a line of white space is treated as such.
-/

namespace HabiCore

open LockedProcesses WireFormat

/-- Why connecting, writing or reading fails. -/
inductive SocketFailure where
  | connect (e : String)
  | send (e : String)
  | read (e : String)
  /-- The other side closes the connection without writing a line. -/
  | closed
  deriving DecidableEq

/-- A line on the admin listener, with the iteration order of the hash set that
its command may build. -/
structure AdminLine where
  text : String
  order : IterationOrder

namespace SocketLines

/-- `char::is_whitespace` -/
def isWhitespace (c : Char) : Bool :=
  let code := c.toNat
  (9 ≤ code && code ≤ 13) || code = 32 || code = 133 || code = 160 || code = 5760 ||
    (8192 ≤ code && code ≤ 8202) || code = 8232 || code = 8233 || code = 8239 ||
    code = 8287 || code = 12288

/-- `line.trim().is_empty()` -/
def isBlank (line : String) : Bool :=
  line.toList.all isWhitespace

/-- What `read_line` takes from the text that arrives: everything up to and with
the first line break. -/
def readOneLine (text : String) : String :=
  String.ofList (text.toList.takeWhile (· ≠ '\n') ++ (text.toList.dropWhile (· ≠ '\n')).take 1)

def writeLine (s : String) : String :=
  s ++ "\n"

/-- The end of `exchange_with_peer`, on what has arrived before the peer has
closed the connection. -/
def readReply (text : String) : Except ExchangeFailure PeerMessage :=
  let line := readOneLine text
  if isBlank line then
    .error .closed
  else
    match PeerMessage.decode line with
    | .ok reply => .ok reply
    | .error e => .error (.badReply e.detail)

/-- The message that the peer listener handles; blank and malformed lines are
dropped. -/
def readMessage (text : String) : Option PeerMessage :=
  let line := readOneLine text
  if isBlank line then
    none
  else
    match PeerMessage.decode line with
    | .ok msg => some msg
    | .error _ => none

/-- The command that the admin listener runs, or what it writes instead:
nothing at all for a blank line. -/
def readCommand (input : AdminLine) : Except (Option String) Command :=
  let line := readOneLine input.text
  if isBlank line then
    .error none
  else
    match AdminMessage.decode line with
    | .ok msg => .ok ⟨msg, input.order⟩
    | .error e => .error (some (writeLine (AdminReply.error e.detail).encode))

def failure : SocketFailure → ExchangeFailure
  | .connect e => .connect e
  | .send e => .send e
  | .read e => .read e
  | .closed => .closed

/-- How a node writes and reads its messages and its state file. -/
def codec : Codec Command PeerMessage ExchangeFailure AdminReply Node
    AdminLine String SocketFailure (Option String) String where
  readCommand := readCommand
  write msg := writeLine msg.encode
  readMessage := readMessage
  readReply := readReply
  failure := failure
  closed := .closed
  writeReply reply := some (writeLine reply.encode)
  writeImage := Persistence.saveNodeState

variable {s line : String} {msg : PeerMessage}

theorem readOneLine_writeLine (oneLine : OneLine s) : readOneLine (writeLine s) = writeLine s := by
  have before : ∀ c ∈ s.toList, decide (c ≠ '\n') = true := by
    intro c member
    simpa using ne_of_mem_of_not_mem member oneLine
  have written : (writeLine s).toList = s.toList ++ ['\n'] := String.toList_append
  rw [readOneLine, written, List.takeWhile_append_of_pos before,
    List.dropWhile_append_of_pos before, ← String.toList_inj, String.toList_ofList, written]
  simp

def firstLine (text : String) : String :=
  String.ofList (text.toList.takeWhile (· ≠ '\n'))

theorem oneLine_firstLine (text : String) : OneLine (firstLine text) := by
  unfold OneLine firstLine
  rw [String.toList_ofList]
  intro member
  simpa using List.mem_takeWhile_imp member

theorem firstLine_of_oneLine (oneLine : OneLine s) : firstLine s = s := by
  have all : ∀ c ∈ s.toList, decide (c ≠ '\n') = true := by
    intro c member
    simpa using ne_of_mem_of_not_mem member oneLine
  rw [firstLine, List.takeWhile_eq_self_iff.mpr all, String.ofList_toList]

theorem readOneLine_cases (text : String) :
    readOneLine text = firstLine text ∨ readOneLine text = writeLine (firstLine text) := by
  unfold readOneLine
  cases rest : text.toList.dropWhile (· ≠ '\n') with
  | nil => exact Or.inl (by simp [firstLine])
  | cons c later =>
      have stops := List.head?_dropWhile_not (fun c => decide (c ≠ '\n')) text.toList
      rw [rest] at stops
      obtain rfl : c = '\n' := by simpa using stops
      refine Or.inr ?_
      rw [← String.toList_inj, writeLine, String.toList_append, firstLine, String.toList_ofList,
        String.toList_ofList]
      rfl

theorem trimEndNewlines_readOneLine (text : String) :
    trimEndNewlines (readOneLine text) = firstLine text := by
  rcases readOneLine_cases text with unterminated | terminated
  · rw [unterminated, trimEndNewlines_of_trimmed]
    intro ends
    exact oneLine_firstLine text (List.mem_of_getLast? ends)
  · rw [terminated]
    exact trimEndNewlines_terminated (oneLine_firstLine text)

theorem firstLine_append {s' : String} (oneLine : OneLine s) :
    firstLine (s ++ s') = s ++ firstLine s' := by
  have before : ∀ c ∈ s.toList, decide (c ≠ '\n') = true := by
    intro c member
    simpa using ne_of_mem_of_not_mem member oneLine
  rw [firstLine, String.toList_append, List.takeWhile_append_of_pos before, ← String.toList_inj,
    String.toList_ofList, String.toList_append, firstLine, String.toList_ofList]

theorem firstLine_escape (s : String) : firstLine (escape s) = escape (firstLine s) := by
  have special : ∀ c, special c = true → decide (c ≠ '\n') = true := by
    rintro c isSpecial
    apply decide_eq_true
    rintro rfl
    exact absurd isSpecial (by decide)
  rw [← String.toList_inj, firstLine, String.toList_ofList, toList_escape,
    EscapedText.takeWhile_escape (by decide) special, toList_escape, firstLine,
    String.toList_ofList]

/-- What is read of a text that is written as a line. -/
theorem readOneLine_written (s : String) : readOneLine (writeLine s) = writeLine (firstLine s) := by
  have scanned : ∀ text : List Char, (text ++ ['\n']).takeWhile (· ≠ '\n') =
      text.takeWhile (· ≠ '\n') ∧ ((text ++ ['\n']).dropWhile (· ≠ '\n')).take 1 = ['\n'] := by
    intro text
    induction text with
    | nil => decide
    | cons c rest ih => by_cases breaks : c = '\n' <;> simp_all
  have written : (writeLine s).toList = s.toList ++ ['\n'] := String.toList_append
  obtain ⟨before, after⟩ := scanned s.toList
  rw [readOneLine, written, before, after, ← String.toList_inj, String.toList_ofList, writeLine,
    String.toList_append, firstLine, String.toList_ofList]
  rfl

theorem isBlank_eq_false {c : Char} (member : c ∈ line.toList) (visible : isWhitespace c = false) :
    isBlank line = false := by
  rw [isBlank, List.all_eq_false]
  exact ⟨c, member, by simp [visible]⟩

theorem oneLine_written {tag : String} {scalars : List String} {lists : List (List String)}
    {fields : List String} (written : fields = tag :: (scalars.map escape ++ lists.map encodeList))
    (isTag : Field tag) (oneLine : OneLineFields scalars lists) :
    OneLine ("|".intercalate fields) := by
  apply oneLine_intercalate (by decide)
  intro field member
  rw [written, List.mem_cons, List.mem_append] at member
  rcases member with rfl | scalar | list
  · exact isTag.2
  · obtain ⟨s, isScalar, rfl⟩ := List.mem_map.mp scalar
    exact oneLine_escape (oneLine.1 s isScalar)
  · obtain ⟨items, isList, rfl⟩ := List.mem_map.mp list
    exact oneLine_encodeList (oneLine.2 items isList)

theorem isBlank_written {tag : String} {fields rest : List String} (written : fields = tag :: rest)
    (visible : '_' ∈ tag.toList) : isBlank (writeLine ("|".intercalate fields)) = false := by
  apply isBlank_eq_false ?_ (by decide : isWhitespace '_' = false)
  rw [writeLine, String.toList_append, String.toList_intercalate, written]
  cases rest with
  | nil => simp [visible]
  | cons next rest => simp [visible]

end SocketLines

open SocketLines

theorem PeerMessage.visible_tag (msg : PeerMessage) : '_' ∈ msg.tag.toList := by
  cases msg <;> dsimp only [tag] <;> decide

theorem AdminMessage.visible_tag (msg : AdminMessage) : '_' ∈ msg.tag.toList := by
  cases msg <;> dsimp only [tag] <;> decide

namespace WireFormat

theorem oneLine_unescape {s : String} (oneLine : OneLine s) : OneLine (unescape s) := by
  unfold OneLine unescape
  rw [String.toList_ofList]
  exact fun member => oneLine (EscapedText.mem_of_mem_unescape member)

theorem oneLine_of_mem_splitFields {line field : String} (oneLine : OneLine line)
    (isField : field ∈ splitFields line) : OneLine field := by
  obtain ⟨part, isPart, rfl⟩ := List.mem_map.mp isField
  unfold OneLine
  rw [String.toList_ofList]
  exact fun member => oneLine (EscapedText.mem_of_mem_split isPart member)

end WireFormat

theorem decode_of_readCommand {input : AdminLine} {command : Command}
    (read : readCommand input = .ok command) :
    AdminMessage.decode (readOneLine input.text) = .ok command.message := by
  simp only [readCommand] at read
  split at read
  · cases read
  · split at read
    · rename_i msg decoded
      cases read
      exact decoded
    · cases read

/-- A command that has been read from a line names nothing that breaks a line. -/
theorem oneLine_of_readCommand {input : AdminLine} {command : Command}
    (read : readCommand input = .ok command) : ∀ s ∈ command.message.scalars, OneLine s := by
  obtain ⟨rawScalars, rawLists, splits, scalars, -⟩ :=
    AdminMessage.spells_of_decode (decode_of_readCommand read)
  rw [trimEndNewlines_readOneLine] at splits
  intro s member
  rw [scalars] at member
  obtain ⟨raw, isRaw, rfl⟩ := List.mem_map.mp member
  apply oneLine_unescape
  apply oneLine_of_mem_splitFields (oneLine_firstLine input.text)
  simp [splits, isRaw]

/-- The strings of a message fit on its line, and its lists have no empty items. -/
def PeerMessage.Readable (msg : PeerMessage) : Prop :=
  (∀ s ∈ msg.scalars, OneLine s) ∧ ∀ items ∈ msg.lists, ∀ b ∈ items, OneLine b ∧ b ≠ ""

namespace PeerMessage.Readable

variable {msg : PeerMessage}

theorem oneLineFields (readable : msg.Readable) : OneLineFields msg.scalars msg.lists :=
  ⟨readable.1, fun items isList b member => (readable.2 items isList b member).1⟩

theorem decode_encode (readable : msg.Readable) :
    PeerMessage.decode (writeLine msg.encode) = .ok msg := by
  refine (decode_encode_iff readable.oneLineFields).mpr fun items isList blank => ?_
  exact (readable.2 items isList "" (by simp [blank])).2 rfl

/-- What a node reads of a message is the line that has been written. -/
theorem line (readable : msg.Readable) :
    readOneLine (writeLine msg.encode) = writeLine msg.encode ∧
      isBlank (writeLine msg.encode) = false :=
  ⟨readOneLine_writeLine (oneLine_written msg.fields_eq msg.field_tag readable.oneLineFields),
    isBlank_written msg.fields_eq msg.visible_tag⟩

theorem readMessage (readable : msg.Readable) :
    SocketLines.readMessage (writeLine msg.encode) = some msg := by
  simp [SocketLines.readMessage, readable.line, readable.decode_encode]

theorem readReply (readable : msg.Readable) :
    SocketLines.readReply (writeLine msg.encode) = .ok msg := by
  simp [SocketLines.readReply, readable.line, readable.decode_encode]

end PeerMessage.Readable

end HabiCore
