import HabiCore.EscapedText
import HabiCore.Wire
import Mathlib.Data.List.DropRight

/-!
# The wire format

A message is one line of fields between bars, and a list is one field of items
between commas.  The backslash escapes both delimiters and itself.
-/

namespace HabiCore

structure WireError where
  detail : String
  deriving DecidableEq

namespace WireFormat

/-- `str::replace` for a pattern of one character -/
def replace (s : String) (pattern : Char) (replacement : String) : String :=
  String.ofList (s.toList.flatMap fun c => if c = pattern then replacement.toList else [c])

def escape (s : String) : String :=
  replace (replace (replace s '\\' "\\\\") '|' "\\|") ',' "\\,"

/-- The characters that `unescape` takes out of an escape sequence. -/
def special (c : Char) : Bool :=
  c = '\\' || c = '|' || c = ','

def unescape (s : String) : String :=
  String.ofList (EscapedText.unescape '\\' special s.toList)

/-- Splits on unescaped bars; the fields are still escaped. -/
def splitFields (line : String) : List String :=
  (EscapedText.split '\\' '|' line.toList).map String.ofList

def encodeList (items : List String) : String :=
  ",".intercalate (items.map escape)

def decodeList (s : String) : List String :=
  if s = "" then
    []
  else
    (EscapedText.split '\\' ',' s.toList).map fun item => unescape (String.ofList item)

/-- `line.trim_end_matches('\n')` -/
def trimEndNewlines (line : String) : String :=
  String.ofList (line.toList.rdropWhile fun c => c = '\n')

end WireFormat

open WireFormat

namespace PeerMessage

/-- The fields of a message, which `format!` writes with bars between them. -/
def fields : PeerMessage → List String
  | .linkUpHello sender ledger spent =>
      ["LINK_UP_HELLO", escape sender, encodeList ledger, encodeList spent]
  | .linkUpAck sender ledger spent =>
      ["LINK_UP_ACK", escape sender, encodeList ledger, encodeList spent]
  | .linkDown sender => ["LINK_DOWN", escape sender]
  | .propagateRequest sender => ["PROPAGATE_REQUEST", escape sender]
  | .propagateReply sender bearers => ["PROPAGATE_REPLY", escape sender, encodeList bearers]
  | .spentNotify sender bearer => ["SPENT_NOTIFY", escape sender, escape bearer]
  | .statusRequest sender => ["STATUS_REQUEST", escape sender]
  | .statusReply sender ledger spent =>
      ["STATUS_REPLY", escape sender, encodeList ledger, encodeList spent]

def encode (msg : PeerMessage) : String :=
  "|".intercalate msg.fields

def decode (line : String) : Except WireError PeerMessage :=
  match splitFields (trimEndNewlines line) with
  | ["LINK_UP_HELLO", sender, ledger, spent] =>
      .ok (.linkUpHello (unescape sender) (decodeList ledger) (decodeList spent))
  | ["LINK_UP_ACK", sender, ledger, spent] =>
      .ok (.linkUpAck (unescape sender) (decodeList ledger) (decodeList spent))
  | ["LINK_DOWN", sender] => .ok (.linkDown (unescape sender))
  | ["PROPAGATE_REQUEST", sender] => .ok (.propagateRequest (unescape sender))
  | ["PROPAGATE_REPLY", sender, bearers] =>
      .ok (.propagateReply (unescape sender) (decodeList bearers))
  | ["SPENT_NOTIFY", sender, bearer] => .ok (.spentNotify (unescape sender) (unescape bearer))
  | ["STATUS_REQUEST", sender] => .ok (.statusRequest (unescape sender))
  | ["STATUS_REPLY", sender, ledger, spent] =>
      .ok (.statusReply (unescape sender) (decodeList ledger) (decodeList spent))
  | _ => .error ⟨"unrecognized or malformed message: " ++ DebugFormat.string line⟩

end PeerMessage

namespace AdminMessage

def fields : AdminMessage → List String
  | .linkUp peer => ["ADMIN_LINK_UP", escape peer]
  | .linkDown peer => ["ADMIN_LINK_DOWN", escape peer]
  | .propagate peer => ["ADMIN_PROPAGATE", escape peer]
  | .spendAt bearer => ["ADMIN_SPEND_AT", escape bearer]
  | .status => ["ADMIN_STATUS"]
  | .seed bearer => ["ADMIN_SEED", escape bearer]
  | .conversionDay => ["ADMIN_CONVERSION_DAY"]

def encode (msg : AdminMessage) : String :=
  "|".intercalate msg.fields

def decode (line : String) : Except WireError AdminMessage :=
  match splitFields (trimEndNewlines line) with
  | ["ADMIN_LINK_UP", peer] => .ok (.linkUp (unescape peer))
  | ["ADMIN_LINK_DOWN", peer] => .ok (.linkDown (unescape peer))
  | ["ADMIN_PROPAGATE", peer] => .ok (.propagate (unescape peer))
  | ["ADMIN_SPEND_AT", bearer] => .ok (.spendAt (unescape bearer))
  | ["ADMIN_STATUS"] => .ok .status
  | ["ADMIN_SEED", bearer] => .ok (.seed (unescape bearer))
  | ["ADMIN_CONVERSION_DAY"] => .ok .conversionDay
  | _ => .error ⟨"unrecognized or malformed admin message: " ++ DebugFormat.string line⟩

end AdminMessage

namespace AdminReply

def fields : AdminReply → List String
  | .ok => ["REPLY_OK"]
  | .error detail => ["REPLY_ERROR", escape detail]
  | .statusReport nodeId ledger spent links =>
      ["REPLY_STATUS", escape nodeId, encodeList ledger, encodeList spent, encodeList links]

def encode (reply : AdminReply) : String :=
  "|".intercalate reply.fields

def decode (line : String) : Except WireError AdminReply :=
  match splitFields (trimEndNewlines line) with
  | ["REPLY_OK"] => .ok .ok
  | ["REPLY_ERROR", detail] => .ok (.error (unescape detail))
  | ["REPLY_STATUS", nodeId, ledger, spent, links] =>
      .ok (.statusReport (unescape nodeId) (decodeList ledger) (decodeList spent)
        (decodeList links))
  | _ => .error ⟨"unrecognized or malformed reply: " ++ DebugFormat.string line⟩

end AdminReply

namespace WireFormat

theorem toList_escape (s : String) :
    (escape s).toList = EscapedText.escape '\\' special s.toList := by
  simp only [escape, replace, String.toList_ofList, List.flatMap_assoc, EscapedText.escape]
  congr 1
  funext c
  by_cases isBackslash : c = '\\'
  · subst isBackslash
    decide
  · by_cases isBar : c = '|'
    · subst isBar
      decide
    · by_cases isComma : c = ','
      · subst isComma
        decide
      · simp [special, isBackslash, isBar, isComma]

theorem shielded_escape (s : String) :
    EscapedText.Shielded '\\' (fun c => special c = true) (escape s).toList := by
  rw [toList_escape]
  exact EscapedText.shielded_escape rfl _

@[simp]
theorem unescape_escape (s : String) : unescape (escape s) = s := by
  rw [unescape, toList_escape, EscapedText.unescape_escape rfl, String.ofList_toList]

theorem escape_eq_empty {s : String} : escape s = "" ↔ s = "" := by
  constructor
  · intro empty
    have undone := unescape_escape s
    rw [empty] at undone
    exact undone.symm
  · rintro rfl
    rfl

theorem toList_encodeList (items : List String) :
    (encodeList items).toList = [','].intercalate (items.map fun item => (escape item).toList) := by
  rw [encodeList, String.toList_intercalate, List.map_map]
  rfl

theorem shielded_encodeList (items : List String) :
    EscapedText.Shielded '\\' (· = '|') (encodeList items).toList := by
  rw [toList_encodeList]
  apply EscapedText.Shielded.intercalate (by decide) (by decide)
  intro part member
  obtain ⟨item, -, rfl⟩ := List.mem_map.mp member
  apply (shielded_escape item).mono
  rintro c rfl
  rfl

theorem encodeList_eq_empty {items : List String} :
    encodeList items = "" ↔ items = [] ∨ items = [""] := by
  match items with
  | [] => simp [encodeList]
  | [item] => simp [encodeList, escape_eq_empty]
  | first :: second :: rest =>
      have joined : (encodeList (first :: second :: rest)).toList ≠ [] := by
        rw [toList_encodeList]
        simp
      have nonempty : encodeList (first :: second :: rest) ≠ "" := by
        intro empty
        exact joined (by rw [empty]; rfl)
      simp [nonempty]

/-- Every list but one is read back as it was written. -/
theorem decodeList_encodeList (items : List String) :
    decodeList (encodeList items) = if items = [""] then [] else items := by
  by_cases empty : encodeList items = ""
  · rw [decodeList, if_pos empty]
    rcases encodeList_eq_empty.mp empty with rfl | rfl <;> simp
  · have notNil : items ≠ [] := fun isNil => empty (encodeList_eq_empty.mpr (Or.inl isNil))
    have notBlank : items ≠ [""] := fun isBlank => empty (encodeList_eq_empty.mpr (Or.inr isBlank))
    have parts : EscapedText.split '\\' ',' (encodeList items).toList =
        items.map fun item => (escape item).toList := by
      rw [toList_encodeList]
      apply EscapedText.split_intercalate (by decide) (by simpa using notNil)
      intro part member
      obtain ⟨item, -, rfl⟩ := List.mem_map.mp member
      apply (shielded_escape item).mono
      rintro c rfl
      rfl
    rw [decodeList, if_neg empty, if_neg notBlank, parts, List.map_map]
    have undone : (fun item => unescape (String.ofList item)) ∘
        (fun item => (escape item).toList) = id := by
      funext item
      simp [String.ofList_toList]
    rw [undone, List.map_id]

/-- The bars of a line are read back as they were written. -/
theorem splitFields_intercalate {fields : List String} (nonempty : fields ≠ [])
    (shielded : ∀ field ∈ fields, EscapedText.Shielded '\\' (· = '|') field.toList) :
    splitFields ("|".intercalate fields) = fields := by
  have parts : EscapedText.split '\\' '|' ("|".intercalate fields).toList =
      fields.map String.toList := by
    rw [String.toList_intercalate]
    apply EscapedText.split_intercalate (by decide) (by simpa using nonempty)
    intro part member
    obtain ⟨field, fieldIn, rfl⟩ := List.mem_map.mp member
    exact shielded field fieldIn
  rw [splitFields, parts, List.map_map]
  have undone : String.ofList ∘ String.toList = id := by
    funext field
    exact String.ofList_toList
  rw [undone, List.map_id]

/-- The string has no line break, as any part of a line that has been read. -/
def OneLine (s : String) : Prop := '\n' ∉ s.toList

instance (s : String) : Decidable (OneLine s) :=
  inferInstanceAs (Decidable ('\n' ∉ s.toList))

theorem oneLine_escape {s : String} (oneLine : OneLine s) : OneLine (escape s) := by
  unfold OneLine at oneLine ⊢
  rw [toList_escape, EscapedText.escape, List.mem_flatMap]
  rintro ⟨c, member, escaped⟩
  split at escaped
  · simp only [List.mem_cons, List.not_mem_nil, or_false] at escaped
    rcases escaped with isBackslash | rfl
    · exact absurd isBackslash (by decide)
    · exact oneLine member
  · obtain rfl := List.mem_singleton.mp escaped
    exact oneLine member

theorem oneLine_intercalate {separator : String} {parts : List String}
    (separatorOneLine : OneLine separator) (oneLine : ∀ part ∈ parts, OneLine part) :
    OneLine (separator.intercalate parts) := by
  unfold OneLine at separatorOneLine oneLine ⊢
  rw [String.toList_intercalate]
  induction parts with
  | nil => simp
  | cons part rest ih =>
      have first := oneLine part List.mem_cons_self
      have others := ih fun other member => oneLine other (List.mem_cons_of_mem _ member)
      cases rest with
      | nil => simpa using first
      | cons next rest =>
          rw [List.map_cons, List.map_cons, List.intercalate_cons_cons]
          rw [List.map_cons] at others
          simp only [List.mem_append, not_or]
          exact ⟨⟨first, separatorOneLine⟩, others⟩

theorem oneLine_encodeList {items : List String} (oneLine : ∀ item ∈ items, OneLine item) :
    OneLine (encodeList items) := by
  apply oneLine_intercalate (by decide)
  intro part member
  obtain ⟨item, itemIn, rfl⟩ := List.mem_map.mp member
  exact oneLine_escape (oneLine item itemIn)

theorem trimEndNewlines_terminated {line : String} (oneLine : OneLine line) :
    trimEndNewlines (line ++ "\n") = line := by
  have terminated : (line ++ "\n").toList = line.toList ++ ['\n'] := String.toList_append
  rw [trimEndNewlines, terminated, List.rdropWhile_concat_pos _ _ _ (by simp)]
  rw [List.rdropWhile_eq_self_iff.mpr, String.ofList_toList]
  intro notEmpty
  have last := List.getLast_mem notEmpty
  simp only [decide_eq_true_eq]
  intro isNewline
  exact oneLine (isNewline ▸ last)

/-- A message that is written as fields is split into these fields again. -/
theorem splitFields_terminated {fields : List String} (nonempty : fields ≠ [])
    (shielded : ∀ field ∈ fields, EscapedText.Shielded '\\' (· = '|') field.toList)
    (oneLine : ∀ field ∈ fields, OneLine field) :
    splitFields (trimEndNewlines ("|".intercalate fields ++ "\n")) = fields := by
  rw [trimEndNewlines_terminated (oneLine_intercalate (by decide) oneLine),
    splitFields_intercalate nonempty shielded]

/-- What a written field must be like to be read back. -/
def Field (field : String) : Prop :=
  EscapedText.Shielded '\\' (· = '|') field.toList ∧ OneLine field

theorem field_escape {s : String} (oneLine : OneLine s) : Field (escape s) := by
  refine ⟨(shielded_escape s).mono ?_, oneLine_escape oneLine⟩
  rintro c rfl
  rfl

theorem field_encodeList {items : List String} (oneLine : ∀ item ∈ items, OneLine item) :
    Field (encodeList items) :=
  ⟨shielded_encodeList items, oneLine_encodeList oneLine⟩

theorem field_tag {tag : String} (plain : escape tag = tag) (oneLine : OneLine tag) :
    Field tag := by
  have asEscaped := field_escape oneLine
  rwa [plain] at asEscaped

end WireFormat

namespace PeerMessage

def lists : PeerMessage → List (List String)
  | .linkUpHello _ ledger spent => [ledger, spent]
  | .linkUpAck _ ledger spent => [ledger, spent]
  | .propagateReply _ bearers => [bearers]
  | .statusReply _ ledger spent => [ledger, spent]
  | _ => []

def scalars : PeerMessage → List String
  | .linkUpHello sender _ _ => [sender]
  | .linkUpAck sender _ _ => [sender]
  | .linkDown sender => [sender]
  | .propagateRequest sender => [sender]
  | .propagateReply sender _ => [sender]
  | .spentNotify sender bearer => [sender, bearer]
  | .statusRequest sender => [sender]
  | .statusReply sender _ _ => [sender]

def mapLists (f : List String → List String) : PeerMessage → PeerMessage
  | .linkUpHello sender ledger spent => .linkUpHello sender (f ledger) (f spent)
  | .linkUpAck sender ledger spent => .linkUpAck sender (f ledger) (f spent)
  | .propagateReply sender bearers => .propagateReply sender (f bearers)
  | .statusReply sender ledger spent => .statusReply sender (f ledger) (f spent)
  | other => other

theorem mapLists_eq_iff (f : List String → List String) (msg : PeerMessage) :
    msg.mapLists f = msg ↔ ∀ items ∈ msg.lists, f items = items := by
  cases msg <;> simp [mapLists, lists]

end PeerMessage

namespace AdminMessage

def scalars : AdminMessage → List String
  | .linkUp peer => [peer]
  | .linkDown peer => [peer]
  | .propagate peer => [peer]
  | .spendAt bearer => [bearer]
  | .status => []
  | .seed bearer => [bearer]
  | .conversionDay => []

end AdminMessage

namespace AdminReply

def lists : AdminReply → List (List String)
  | .statusReport _ ledger spent links => [ledger, spent, links]
  | _ => []

def scalars : AdminReply → List String
  | .ok => []
  | .error detail => [detail]
  | .statusReport nodeId _ _ _ => [nodeId]

def mapLists (f : List String → List String) : AdminReply → AdminReply
  | .statusReport nodeId ledger spent links =>
      .statusReport nodeId (f ledger) (f spent) (f links)
  | other => other

theorem mapLists_eq_iff (f : List String → List String) (reply : AdminReply) :
    reply.mapLists f = reply ↔ ∀ items ∈ reply.lists, f items = items := by
  cases reply <;> simp [mapLists, lists]

end AdminReply

namespace WireFormat

/-- No string among the scalars and lists of a message breaks the line. -/
def OneLineFields (scalars : List String) (lists : List (List String)) : Prop :=
  (∀ s ∈ scalars, OneLine s) ∧ ∀ items ∈ lists, ∀ item ∈ items, OneLine item

/-- A line that consists of a tag, escaped scalars and encoded lists is split into
its fields again. -/
theorem splitFields_written {tag : String} {scalars : List String} {lists : List (List String)}
    {fields : List String} (written : fields = tag :: (scalars.map escape ++ lists.map encodeList))
    (isTag : Field tag) (oneLine : OneLineFields scalars lists) :
    splitFields (trimEndNewlines ("|".intercalate fields ++ "\n")) = fields := by
  have isField : ∀ field ∈ fields, Field field := by
    intro field member
    rw [written, List.mem_cons, List.mem_append] at member
    rcases member with rfl | scalar | list
    · exact isTag
    · obtain ⟨s, isScalar, rfl⟩ := List.mem_map.mp scalar
      exact field_escape (oneLine.1 s isScalar)
    · obtain ⟨items, isList, rfl⟩ := List.mem_map.mp list
      exact field_encodeList (oneLine.2 items isList)
  apply splitFields_terminated
  · simp [written]
  · exact fun field member => (isField field member).1
  · exact fun field member => (isField field member).2

theorem decodeList_encodeList_eq_iff (items : List String) :
    decodeList (encodeList items) = items ↔ items ≠ [""] := by
  rw [decodeList_encodeList]
  by_cases isBlank : items = [""]
  · simp [isBlank]
  · simp [isBlank]

end WireFormat

namespace PeerMessage

def tag : PeerMessage → String
  | .linkUpHello .. => "LINK_UP_HELLO"
  | .linkUpAck .. => "LINK_UP_ACK"
  | .linkDown _ => "LINK_DOWN"
  | .propagateRequest _ => "PROPAGATE_REQUEST"
  | .propagateReply .. => "PROPAGATE_REPLY"
  | .spentNotify .. => "SPENT_NOTIFY"
  | .statusRequest _ => "STATUS_REQUEST"
  | .statusReply .. => "STATUS_REPLY"

theorem fields_eq (msg : PeerMessage) :
    msg.fields = msg.tag :: (msg.scalars.map escape ++ msg.lists.map encodeList) := by
  cases msg <;> rfl

theorem field_tag (msg : PeerMessage) : Field msg.tag := by
  cases msg <;> dsimp only [tag] <;> exact WireFormat.field_tag (by decide) (by decide)

/-- A message is read back with its lists as they are read back. -/
theorem decode_of_split {msg : PeerMessage} {line : String}
    (splits : splitFields (trimEndNewlines line) = msg.fields) :
    decode line = .ok (msg.mapLists fun items => decodeList (encodeList items)) := by
  unfold decode
  rw [splits]
  cases msg <;> simp [fields, mapLists]

theorem decode_encode {msg : PeerMessage} (oneLine : OneLineFields msg.scalars msg.lists) :
    decode (msg.encode ++ "\n") =
      .ok (msg.mapLists fun items => decodeList (encodeList items)) :=
  decode_of_split (splitFields_written msg.fields_eq msg.field_tag oneLine)

theorem decode_encode_iff {msg : PeerMessage} (oneLine : OneLineFields msg.scalars msg.lists) :
    decode (msg.encode ++ "\n") = .ok msg ↔ ∀ items ∈ msg.lists, items ≠ [""] := by
  rw [decode_encode oneLine, Except.ok.injEq, mapLists_eq_iff]
  simp only [decodeList_encodeList_eq_iff]

end PeerMessage

namespace AdminMessage

def tag : AdminMessage → String
  | .linkUp _ => "ADMIN_LINK_UP"
  | .linkDown _ => "ADMIN_LINK_DOWN"
  | .propagate _ => "ADMIN_PROPAGATE"
  | .spendAt _ => "ADMIN_SPEND_AT"
  | .status => "ADMIN_STATUS"
  | .seed _ => "ADMIN_SEED"
  | .conversionDay => "ADMIN_CONVERSION_DAY"

theorem fields_eq (msg : AdminMessage) :
    msg.fields =
      msg.tag :: (msg.scalars.map escape ++ ([] : List (List String)).map encodeList) := by
  cases msg <;> rfl

theorem field_tag (msg : AdminMessage) : Field msg.tag := by
  cases msg <;> dsimp only [tag] <;> exact WireFormat.field_tag (by decide) (by decide)

theorem decode_of_split {msg : AdminMessage} {line : String}
    (splits : splitFields (trimEndNewlines line) = msg.fields) : decode line = .ok msg := by
  unfold decode
  rw [splits]
  cases msg <;> simp [fields]

theorem decode_encode {msg : AdminMessage} (oneLine : ∀ s ∈ msg.scalars, OneLine s) :
    decode (msg.encode ++ "\n") = .ok msg :=
  decode_of_split (splitFields_written msg.fields_eq msg.field_tag ⟨oneLine, by simp⟩)

end AdminMessage

namespace AdminReply

def tag : AdminReply → String
  | .ok => "REPLY_OK"
  | .error _ => "REPLY_ERROR"
  | .statusReport .. => "REPLY_STATUS"

theorem fields_eq (reply : AdminReply) :
    reply.fields = reply.tag :: (reply.scalars.map escape ++ reply.lists.map encodeList) := by
  cases reply <;> rfl

theorem field_tag (reply : AdminReply) : Field reply.tag := by
  cases reply <;> dsimp only [tag] <;> exact WireFormat.field_tag (by decide) (by decide)

theorem decode_of_split {reply : AdminReply} {line : String}
    (splits : splitFields (trimEndNewlines line) = reply.fields) :
    decode line = .ok (reply.mapLists fun items => decodeList (encodeList items)) := by
  unfold decode
  rw [splits]
  cases reply <;> simp [fields, mapLists]

theorem decode_encode {reply : AdminReply}
    (oneLine : OneLineFields reply.scalars reply.lists) :
    decode (reply.encode ++ "\n") =
      .ok (reply.mapLists fun items => decodeList (encodeList items)) :=
  decode_of_split (splitFields_written reply.fields_eq reply.field_tag oneLine)

theorem decode_encode_iff {reply : AdminReply}
    (oneLine : OneLineFields reply.scalars reply.lists) :
    decode (reply.encode ++ "\n") = .ok reply ↔ ∀ items ∈ reply.lists, items ≠ [""] := by
  rw [decode_encode oneLine, Except.ok.injEq, mapLists_eq_iff]
  simp only [decodeList_encodeList_eq_iff]

end AdminReply

/-- The round trip over the whole format: a message that fits on a line is read
back from its line exactly if none of its lists consists of one empty string.
The messages of the administrator have no lists. -/
theorem wire_round_trip_iff (msg : PeerMessage) (command : AdminMessage) (reply : AdminReply) :
    (OneLineFields msg.scalars msg.lists →
      (PeerMessage.decode (msg.encode ++ "\n") = .ok msg ↔
        ∀ items ∈ msg.lists, items ≠ [""])) ∧
    ((∀ s ∈ command.scalars, OneLine s) →
      AdminMessage.decode (command.encode ++ "\n") = .ok command) ∧
    (OneLineFields reply.scalars reply.lists →
      (AdminReply.decode (reply.encode ++ "\n") = .ok reply ↔
        ∀ items ∈ reply.lists, items ≠ [""])) :=
  ⟨fun oneLine => PeerMessage.decode_encode_iff oneLine,
    fun oneLine => AdminMessage.decode_encode oneLine,
    fun oneLine => AdminReply.decode_encode_iff oneLine⟩

/-- A bearer with delimiters in its name is read back. -/
theorem wire_round_trip_iff_escaped :
    PeerMessage.decode
        ((PeerMessage.linkUpHello "N1" ["weird|bearer\\name,with,commas", "", "b2"] []).encode ++
          "\n") =
      .ok (.linkUpHello "N1" ["weird|bearer\\name,with,commas", "", "b2"] []) := by
  refine ((wire_round_trip_iff _ .status .ok).1 ⟨?_, ?_⟩).mpr ?_
  · decide
  · decide
  · decide

/-- A node that holds the empty bearer name reports an empty ledger. -/
theorem blank_item_lost :
    OneLineFields (PeerMessage.statusReply "N1" [""] []).scalars
        (PeerMessage.statusReply "N1" [""] []).lists ∧
      PeerMessage.decode ((PeerMessage.statusReply "N1" [""] []).encode ++ "\n") ≠
        .ok (.statusReply "N1" [""] []) := by
  have oneLine : OneLineFields (PeerMessage.statusReply "N1" [""] []).scalars
      (PeerMessage.statusReply "N1" [""] []).lists := ⟨by decide, by decide⟩
  refine ⟨oneLine, fun readBack => ?_⟩
  rw [PeerMessage.decode_encode oneLine] at readBack
  simp [PeerMessage.mapLists, decodeList_encodeList] at readBack

end HabiCore
