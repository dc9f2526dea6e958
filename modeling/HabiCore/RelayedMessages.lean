import HabiCore.WireFormat

/-!
# Messages that are relayed

The decoder accepts many spellings of one message: bare commas, unknown and
dangling escape sequences, any number of line breaks at the end.  Whatever it
accepts can be written by the encoder, so that a name taken off the wire keeps
its identity however many nodes relay it.
-/

namespace HabiCore

namespace WireFormat

/-- Both layers are exact.  A list is read back as it was written unless it
consists of one empty string, and fields that have been written by either layer
are split as they were joined. -/
theorem field_layers_exact :
    (∀ items : List String, decodeList (encodeList items) = items ↔ items ≠ [""]) ∧
    ∀ fields : List String, fields ≠ [] →
      (∀ field ∈ fields, (∃ s, field = escape s) ∨ ∃ items, field = encodeList items) →
      splitFields ("|".intercalate fields) = fields := by
  refine ⟨decodeList_encodeList_eq_iff, fun fields nonempty written => ?_⟩
  apply splitFields_intercalate nonempty
  intro field member
  rcases written field member with ⟨s, rfl⟩ | ⟨items, rfl⟩
  · apply (shielded_escape s).mono
    rintro c rfl
    rfl
  · exact shielded_encodeList items

/-- An escaped field with bars and commas next to a list field with an empty item. -/
theorem field_layers_exact_nested :
    splitFields ("|".intercalate [escape "a|b,c\\", encodeList ["", "d|"]]) =
      [escape "a|b,c\\", encodeList ["", "d|"]] := by
  apply field_layers_exact.2 _ (by simp)
  intro field member
  rcases List.mem_pair.mp member with rfl | rfl
  · exact Or.inl ⟨_, rfl⟩
  · exact Or.inr ⟨_, rfl⟩

/-- The string does not end in a line break. -/
def Trimmed (s : String) : Prop :=
  s.toList.getLast? ≠ some '\n'

theorem trimmed_trimEndNewlines (line : String) : Trimmed (trimEndNewlines line) := by
  unfold Trimmed trimEndNewlines
  rw [String.toList_ofList]
  intro ends
  have notNil := List.getLast?_isSome.mp (Option.isSome_of_eq_some ends)
  rw [List.getLast?_eq_some_getLast notNil, Option.some_inj] at ends
  have isKept := List.rdropWhile_last_not _ _ notNil
  simp [ends] at isKept

theorem trimEndNewlines_of_trimmed {s : String} (trimmed : Trimmed s) :
    trimEndNewlines s = s := by
  rw [trimEndNewlines, List.rdropWhile_eq_self_iff.mpr, String.ofList_toList]
  intro notNil isBreak
  apply trimmed
  rw [List.getLast?_eq_some_getLast notNil]
  simpa using isBreak

theorem trimmed_escape {s : String} : Trimmed (escape s) ↔ Trimmed s := by
  rw [Trimmed, toList_escape, EscapedText.getLast?_escape, Trimmed]

theorem trimmed_unescape {s : String} : Trimmed (unescape s) ↔ Trimmed s := by
  rw [Trimmed, unescape, String.toList_ofList, EscapedText.getLast?_unescape, Trimmed]

theorem trimmed_of_splitFields {line field : String} (trimmed : Trimmed line)
    (isLast : (splitFields line).getLast? = some field) : Trimmed field := by
  intro ends
  rw [splitFields, List.getLast?_map, Option.map_eq_some_iff] at isLast
  obtain ⟨last, isLast, rfl⟩ := isLast
  rw [String.toList_ofList] at ends
  exact trimmed (EscapedText.getLast?_of_split isLast ends)

theorem trimmed_intercalate {separator last : String} {c : Char} {strings : List String}
    (isSymbol : separator.toList = [c]) (noBreak : c ≠ '\n')
    (isLast : strings.getLast? = some last) (trimmed : Trimmed last) :
    Trimmed (separator.intercalate strings) := by
  obtain ⟨rest, rfl⟩ := List.getLast?_eq_some_iff.mp isLast
  unfold Trimmed at trimmed ⊢
  rw [String.toList_intercalate, isSymbol, List.map_append, List.map_singleton,
    EscapedText.getLast?_intercalate]
  cases ends : last.toList.getLast? with
  | some d => simpa [ends] using trimmed
  | none => cases rest <;> simp [noBreak]

theorem trimmed_encodeList {items : List String}
    (trimmed : ∀ last, items.getLast? = some last → Trimmed last) :
    Trimmed (encodeList items) := by
  cases isLast : items.getLast? with
  | none =>
      obtain rfl := List.getLast?_eq_none_iff.mp isLast
      simp [Trimmed, encodeList]
  | some last =>
      have isLastPart : (items.map escape).getLast? = some (escape last) := by
        rw [List.getLast?_map, isLast]
        rfl
      exact trimmed_intercalate rfl (by decide) isLastPart
        (trimmed_escape.mpr (trimmed last isLast))

theorem trimmed_decodeList {s last : String} (trimmed : Trimmed s)
    (isLast : (decodeList s).getLast? = some last) : Trimmed last := by
  unfold decodeList at isLast
  split at isLast
  · cases isLast
  · rw [List.getLast?_map, Option.map_eq_some_iff] at isLast
    obtain ⟨item, isLast, rfl⟩ := isLast
    rw [trimmed_unescape]
    intro ends
    rw [String.toList_ofList] at ends
    exact trimmed (EscapedText.getLast?_of_split isLast ends)

theorem decodeList_ne_blank (s : String) : decodeList s ≠ [""] := by
  intro isBlank
  unfold decodeList at isBlank
  split at isBlank
  · cases isBlank
  · rename_i notEmpty
    obtain ⟨item, splits, isEmpty⟩ := List.map_eq_singleton_iff.mp isBlank
    have blank : item = [] := by
      rw [unescape, String.toList_ofList] at isEmpty
      have noText := congrArg String.toList isEmpty
      rw [String.toList_ofList] at noText
      exact EscapedText.unescape_eq_nil.mp noText
    have joined : [','].intercalate (EscapedText.split '\\' ',' s.toList) = s.toList :=
      EscapedText.intercalate_split s.toList
    rw [splits, List.intercalate_singleton, blank] at joined
    exact notEmpty (String.toList_eq_nil_iff.mp joined.symm)

/-- The fields of a line that is accepted, still escaped, with the strings and
lists that are read from them. -/
def Spells (raw : List String) (tag : String) (scalars : List String)
    (lists : List (List String)) : Prop :=
  ∃ rawScalars rawLists, raw = tag :: (rawScalars ++ rawLists) ∧
    scalars = rawScalars.map unescape ∧ lists = rawLists.map decodeList

/-- What has been spelt somehow is written so that it is split into its fields
again. -/
theorem splitFields_of_spells {line tag : String} {scalars fields : List String}
    {lists : List (List String)}
    (spells : Spells (splitFields (trimEndNewlines line)) tag scalars lists)
    (written : fields = tag :: (scalars.map escape ++ lists.map encodeList))
    (isTag : Field tag) : splitFields (trimEndNewlines ("|".intercalate fields)) = fields := by
  obtain ⟨rawScalars, rawLists, split, rfl, rfl⟩ := spells
  have isTrimmed : ∀ last, fields.getLast? = some last → Trimmed last := by
    intro last isLast
    have lastRaw : ∀ raw, (tag :: (rawScalars ++ rawLists)).getLast? = some raw →
        Trimmed raw := by
      rw [← split]
      exact fun raw => trimmed_of_splitFields (trimmed_trimEndNewlines line)
    rcases List.eq_nil_or_concat' rawLists with rfl | ⟨otherLists, list, rfl⟩
    · rcases List.eq_nil_or_concat' rawScalars with rfl | ⟨others, scalar, rfl⟩
      · obtain rfl : tag = last := by simpa [written] using isLast
        exact lastRaw tag rfl
      · obtain rfl : escape (unescape scalar) = last := by
          simpa [written, List.getLast?_cons] using isLast
        rw [trimmed_escape, trimmed_unescape]
        exact lastRaw scalar (by simp [List.getLast?_cons])
    · obtain rfl : encodeList (decodeList list) = last := by
        simpa [written, List.getLast?_cons] using isLast
      have rawTrimmed : Trimmed list := lastRaw list (by simp [List.getLast?_cons])
      exact trimmed_encodeList fun item isItem => trimmed_decodeList rawTrimmed isItem
  have nonempty : fields ≠ [] := by simp [written]
  have lastField := List.getLast?_eq_some_getLast nonempty
  rw [trimEndNewlines_of_trimmed
    (trimmed_intercalate rfl (by decide) lastField (isTrimmed _ lastField))]
  apply splitFields_intercalate nonempty
  intro field member
  rw [written, List.mem_cons, List.mem_append] at member
  rcases member with rfl | scalar | list
  · exact isTag.1
  · obtain ⟨s, -, rfl⟩ := List.mem_map.mp scalar
    apply (shielded_escape s).mono
    rintro c rfl
    rfl
  · obtain ⟨items, -, rfl⟩ := List.mem_map.mp list
    exact shielded_encodeList items

/-- No list that has been read from a field is changed by writing it. -/
theorem Spells.decodeList_encodeList {raw : List String} {tag : String} {scalars : List String}
    {lists : List (List String)} (spells : Spells raw tag scalars lists) :
    ∀ items ∈ lists, decodeList (encodeList items) = items := by
  obtain ⟨rawScalars, rawLists, -, -, rfl⟩ := spells
  intro items member
  obtain ⟨list, -, rfl⟩ := List.mem_map.mp member
  exact (decodeList_encodeList_eq_iff _).mpr (decodeList_ne_blank list)

end WireFormat

open WireFormat

theorem PeerMessage.spells_of_decode {line : String} {msg : PeerMessage}
    (decoded : decode line = .ok msg) :
    Spells (splitFields (trimEndNewlines line)) msg.tag msg.scalars msg.lists := by
  unfold decode at decoded
  split at decoded
  case h_9 => cases decoded
  case h_1 sender ledger spent split | h_2 sender ledger spent split |
      h_8 sender ledger spent split =>
    cases decoded
    exact ⟨[sender], [ledger, spent], split, rfl, rfl⟩
  case h_3 sender split | h_4 sender split | h_7 sender split =>
    cases decoded
    exact ⟨[sender], [], split, rfl, rfl⟩
  case h_5 sender bearers split =>
    cases decoded
    exact ⟨[sender], [bearers], split, rfl, rfl⟩
  case h_6 sender bearer split =>
    cases decoded
    exact ⟨[sender, bearer], [], split, rfl, rfl⟩

theorem AdminMessage.spells_of_decode {line : String} {msg : AdminMessage}
    (decoded : decode line = .ok msg) :
    Spells (splitFields (trimEndNewlines line)) msg.tag msg.scalars [] := by
  unfold decode at decoded
  split at decoded
  case h_8 => cases decoded
  case h_5 split | h_7 split =>
    cases decoded
    exact ⟨[], [], split, rfl, rfl⟩
  case h_1 name split | h_2 name split | h_3 name split | h_4 name split | h_6 name split =>
    cases decoded
    exact ⟨[name], [], split, rfl, rfl⟩

theorem AdminReply.spells_of_decode {line : String} {reply : AdminReply}
    (decoded : decode line = .ok reply) :
    Spells (splitFields (trimEndNewlines line)) reply.tag reply.scalars reply.lists := by
  unfold decode at decoded
  split at decoded
  case h_1 split =>
    cases decoded
    exact ⟨[], [], split, rfl, rfl⟩
  case h_2 detail split =>
    cases decoded
    exact ⟨[detail], [], split, rfl, rfl⟩
  case h_3 nodeId ledger spent links split =>
    cases decoded
    exact ⟨[nodeId], [ledger, spent, links], split, rfl, rfl⟩
  case h_4 => cases decoded

/-- Whatever line a message has been read from, it is read back from its own
encoding. -/
theorem decoding_is_stable (line : String) :
    (∀ msg, PeerMessage.decode line = .ok msg → PeerMessage.decode msg.encode = .ok msg) ∧
    (∀ msg, AdminMessage.decode line = .ok msg → AdminMessage.decode msg.encode = .ok msg) ∧
    ∀ reply, AdminReply.decode line = .ok reply →
      AdminReply.decode reply.encode = .ok reply := by
  refine ⟨fun msg decoded => ?_, fun msg decoded => ?_, fun reply decoded => ?_⟩
  · have spells := msg.spells_of_decode decoded
    rw [PeerMessage.encode,
      PeerMessage.decode_of_split (splitFields_of_spells spells msg.fields_eq msg.field_tag),
      (msg.mapLists_eq_iff _).mpr spells.decodeList_encodeList]
  · have spells := msg.spells_of_decode decoded
    exact AdminMessage.decode_of_split (splitFields_of_spells spells msg.fields_eq msg.field_tag)
  · have spells := reply.spells_of_decode decoded
    rw [AdminReply.encode, AdminReply.decode_of_split
        (splitFields_of_spells spells reply.fields_eq reply.field_tag),
      (reply.mapLists_eq_iff _).mpr spells.decodeList_encodeList]

/-- A line with a bare comma, an unknown and a dangling escape sequence, and two
line breaks at its end. -/
theorem decoding_is_stable_lenient :
    PeerMessage.decode "SPENT_NOTIFY|N1,\\x|b\\\n\n" = .ok (.spentNotify "N1,\\x" "b\\") ∧
      PeerMessage.decode (PeerMessage.spentNotify "N1,\\x" "b\\").encode =
        .ok (.spentNotify "N1,\\x" "b\\") := by
  have splits : splitFields (trimEndNewlines "SPENT_NOTIFY|N1,\\x|b\\\n\n") =
      ["SPENT_NOTIFY", "N1,\\x", "b\\"] := by
    simp only [splitFields, trimEndNewlines, String.reduceToList, String.toList_ofList]
    decide
  have decoded : PeerMessage.decode "SPENT_NOTIFY|N1,\\x|b\\\n\n" =
      .ok (.spentNotify "N1,\\x" "b\\") := by
    unfold PeerMessage.decode
    rw [splits]
    simp [unescape, EscapedText.unescape, special]
  exact ⟨decoded, (decoding_is_stable _).1 _ decoded⟩

end HabiCore
