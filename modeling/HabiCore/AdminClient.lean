import HabiCore.TextDeployment

/-!
# The admin client

The client makes one command of its arguments, sends it to the admin listener of
a node and prints the reply.  An argument or an error text that breaks its line
gets through up to the break.
-/

namespace HabiCore

open LockedProcesses LabelledRuns WireFormat SocketLines

namespace HabiAdmin

/-- How the client ends: with lines on stdout, with status 1 and a line on stderr,
or in an `unwrap`. -/
inductive Exit where
  | printed (stdout : List String)
  | failed (stderr : String)
  | panicked (failure : SocketFailure)

/-- The address and the command that the arguments, after the program's name, stand
for; a missing name is empty. -/
def readArgs (program : String) : List String → Except String (String × AdminMessage)
  | addr :: cmd :: rest =>
      let arg := rest.headD ""
      match cmd with
      | "link-up" => .ok (addr, .linkUp arg)
      | "link-down" => .ok (addr, .linkDown arg)
      | "propagate" => .ok (addr, .propagate arg)
      | "spend" => .ok (addr, .spendAt arg)
      | "status" => .ok (addr, .status)
      | "seed" => .ok (addr, .seed arg)
      | "conversion-day" => .ok (addr, .conversionDay)
      | other => .error s!"unknown command: {other}"
  | _ => .error ("usage: " ++ program ++
      " <admin_addr> <link-up|link-down|propagate|spend|status> [arg]")

def shown : AdminReply → List String
  | .ok => ["OK"]
  | .error detail => [s!"ERROR: {detail}"]
  | .statusReport nodeId ledger spent links =>
      [s!"node_id: {nodeId}", "ledger:  " ++ DebugFormat.strings ledger,
        "spent:   " ++ DebugFormat.strings spent, "links:   " ++ DebugFormat.strings links]

def report (line : String) : List String :=
  match AdminReply.decode line with
  | .ok reply => shown reply
  | .error e => [s!"malformed reply: {e.detail} (raw: {DebugFormat.string line})"]

/-- The client, given what happens on a connection when a text is written to it. -/
def main (program : String) (args : List String)
    (connection : String → String → Except SocketFailure String) : Exit :=
  match readArgs program args with
  | .error text => .failed text
  | .ok (addr, msg) =>
      match connection addr (writeLine msg.encode) with
      | .ok text => .printed (report (readOneLine text))
      | .error .closed => .printed (report "")
      | .error (.connect e) => .failed s!"failed to connect to {addr}: {e}"
      | .error other => .panicked other

end HabiAdmin

/-- A command with its argument up to the first line break. -/
def AdminMessage.upToBreak : AdminMessage → AdminMessage
  | .linkUp peer => .linkUp (firstLine peer)
  | .linkDown peer => .linkDown (firstLine peer)
  | .propagate peer => .propagate (firstLine peer)
  | .spendAt bearer => .spendAt (firstLine bearer)
  | .status => .status
  | .seed bearer => .seed (firstLine bearer)
  | .conversionDay => .conversionDay

def AdminReply.upToBreak : AdminReply → AdminReply
  | .error detail => .error (firstLine detail)
  | other => other

namespace SocketLines

theorem firstLine_tagged {tag : String} (oneLine : OneLine tag) (s : String) :
    firstLine ("|".intercalate [tag, escape s]) = "|".intercalate [tag, escape (firstLine s)] := by
  have joined (s : String) : "|".intercalate [tag, s] = (tag ++ "|") ++ s := by
    rw [← String.toList_inj]
    simp [String.toList_append]
  have before : OneLine (tag ++ "|") := by
    unfold OneLine at oneLine ⊢
    simpa [String.toList_append] using oneLine
  rw [joined, joined, firstLine_append before, firstLine_escape]

theorem firstLine_encode (msg : AdminMessage) :
    firstLine msg.encode = msg.upToBreak.encode := by
  cases msg with
  | status | conversionDay => decide +kernel
  | _ => exact firstLine_tagged (by decide) _

/-- The node runs the command of the client, whatever its argument is. -/
theorem readCommand_encode (msg : AdminMessage) (order : IterationOrder) :
    codec.readCommand ⟨writeLine msg.encode, order⟩ = .ok ⟨msg.upToBreak, order⟩ := by
  have oneLine : ∀ s ∈ msg.upToBreak.scalars, OneLine s := by
    cases msg <;> simp [AdminMessage.upToBreak, AdminMessage.scalars, oneLine_firstLine]
  have decoded : AdminMessage.decode (writeLine msg.upToBreak.encode) = .ok msg.upToBreak :=
    AdminMessage.decode_encode oneLine
  have visible : isBlank (writeLine msg.upToBreak.encode) = false :=
    isBlank_written msg.upToBreak.fields_eq msg.upToBreak.visible_tag
  simp [codec, readCommand, readOneLine_written, firstLine_encode, visible, decoded]

/-- The client reads the reply of the node, if the names of a report are such that
they can be read back. -/
theorem decode_reply {reply : AdminReply}
    (reports : ∀ nodeId ledger spent links, reply = .statusReport nodeId ledger spent links →
      OneLine nodeId ∧ ∀ items ∈ [ledger, spent, links], ∀ s ∈ items, OneLine s ∧ s ≠ "") :
    AdminReply.decode (readOneLine (writeLine reply.encode)) = .ok reply.upToBreak := by
  rw [readOneLine_written]
  cases reply with
  | ok => decide +kernel
  | error detail =>
      have cut : firstLine (AdminReply.error detail).encode =
          (AdminReply.error (firstLine detail)).encode := firstLine_tagged (by decide) detail
      rw [cut]
      refine (AdminReply.decode_encode_iff ⟨?_, ?_⟩).mpr ?_ <;>
        simp [AdminReply.scalars, AdminReply.lists, oneLine_firstLine]
  | statusReport nodeId ledger spent links =>
      obtain ⟨named, listed⟩ := reports nodeId ledger spent links rfl
      have oneLine : OneLineFields (AdminReply.statusReport nodeId ledger spent links).scalars
          (AdminReply.statusReport nodeId ledger spent links).lists :=
        ⟨List.forall_mem_singleton.mpr named,
          fun items isList s member => (listed items isList s member).1⟩
      have unbroken := oneLine_written (AdminReply.fields_eq _) (AdminReply.field_tag _) oneLine
      rw [AdminReply.encode, firstLine_of_oneLine unbroken]
      refine (AdminReply.decode_encode_iff oneLine).mpr fun items isList blank => ?_
      exact (listed items isList "" (by simp [blank])).2 rfl

end SocketLines

namespace Deployment

/-- Names as in `readable`, and no node id is the empty string. -/
def reportable : Contents :=
  { readable with nodeId := fun id => OneLine id ∧ id ≠ "" }

theorem reportable_fits : Fits reportable where
  nodeId _ named := named.1
  bearer _ := id

theorem reportable_new {nodeId : String} (named : OneLine nodeId ∧ nodeId ≠ "") :
    reportable.InNode (NodeShared.new nodeId).node ∧ reportable.InLinks (.new nodeId) := by
  refine ⟨Contents.inNode_new named, fun peer linked => ?_⟩
  simp [NodeShared.isLinked, NodeShared.new] at linked

theorem upToBreak_of_reportable {reply : AdminReply} (reported : reportable.InReply reply) :
    AdminReply.decode (readOneLine (writeLine reply.encode)) = .ok reply.upToBreak := by
  apply decode_reply
  rintro nodeId ledger spent links rfl
  obtain ⟨named, held, isSpent, live⟩ := reported
  refine ⟨named.1, fun items isList s member => ?_⟩
  simp only [List.mem_cons, List.not_mem_nil, or_false] at isList
  rcases isList with rfl | rfl | rfl
  · exact held s member
  · exact isSpent s member
  · exact live s member

variable {ι : Type} [DecidableEq ι] {D : Deployment ι} {last' : TextWorld ι}
  {trace' : List (TextWorld ι × TextEvent ι)}

/-- What the client prints is the reply of the handler that ran its command on the
node.  This holds in every run over text, whatever the other connections do, and
for all arguments. -/
theorem client_prints_reply {memory : ι → NodeShared}
    (contains : ∀ i, reportable.InNode (memory i).node ∧ reportable.InLinks (memory i))
    (run : Run D.textSystem.Step (textIdle memory) trace' last')
    (names : ∀ entry ∈ trace', entry.2.Starts NamesBearer) {program addr : String}
    {args : List String} {msg : AdminMessage}
    (invoked : HabiAdmin.readArgs program args = .ok (addr, msg)) {k : Nat}
    {connection : LockedProcesses.Thread ι AdminLine CriticalSection NodeShared String String
      SocketFailure (Option String)} (present : last'.threads[k]? = some connection)
    (received : connection.command.text = writeLine msg.encode) {answer : Option String}
    (replied : connection.activity.reply = some answer) :
    ∃ trace last reply, Run D.system.Step (idle memory) trace last ∧
      codec.Writes last' last ∧
      ⟨connection.process, ⟨msg.upToBreak, connection.command.order⟩, .replied reply⟩ ∈
        last.threads ∧
      ∃ text, answer = some text ∧
        HabiAdmin.main program args (fun _ _ => .ok text) =
          .printed (HabiAdmin.shown reply.upToBreak) := by
  obtain ⟨trace, last, follows, ⟨writes, complies⟩, -⟩ :=
    reportable_fits.follows_run True (textIdle_writes memory) (idle_idle memory).quiescent rfl
      (fun i => ⟨(contains i).1, fun _ => (contains i).2⟩) run fun entry member =>
        (names entry member).mono fun _ named _ read _ => bearer_of_namesBearer named read
  obtain ⟨i, ⟨line, order⟩, activity'⟩ := connection
  obtain rfl : line = writeLine msg.encode := received
  have reads := readCommand_encode msg order
  rcases writes.threads.mem_full (List.mem_of_getElem? present) with ⟨refusal, refused, -⟩ |
    ⟨⟨j, command, activity⟩, member, read, same, isActivity⟩
  · exact absurd (reads.symm.trans refused) (by simp)
  · obtain rfl : i = j := same
    have sameCommand : (⟨msg.upToBreak, order⟩ : Command) = command := by
      simpa using reads.symm.trans read
    subst sameCommand
    rw [isActivity] at replied
    obtain ⟨reply, rfl, rfl⟩ := Codec.activity_reply.mp replied
    have reported : reportable.InReply reply := complies.threads _ member trivial
    refine ⟨trace, last, reply, follows, writes, member, writeLine reply.encode, rfl, ?_⟩
    simp [HabiAdmin.main, invoked, HabiAdmin.report, upToBreak_of_reportable reported]

/-- An argument of two lines: the node spends the bearer that the first one names. -/
theorem client_prints_reply_spend :
    ∃ trace' last' trace last order reply, Run (cluster ["N1", "N2"]).textSystem.Step
        (textIdle fun i => .new (["N1", "N2"].get i)) trace' last' ∧
      Run (cluster ["N1", "N2"]).system.Step (idle fun i => .new (["N1", "N2"].get i)) trace
        last ∧
      codec.Writes last' last ∧
      ⟨0, ⟨.spendAt "b1", order⟩, .replied reply⟩ ∈ last.threads ∧
      HabiAdmin.main "habi_admin" ["localhost:9001", "spend", "b1\nb2"]
          (fun _ _ => .ok "REPLY_OK\n") =
        .printed (HabiAdmin.shown reply.upToBreak) := by
  obtain ⟨trace', last', run, labels, answered⟩ := System.exists_run
    (cluster ["N1", "N2"]).textSystem (textIdle fun i => .new (["N1", "N2"].get i))
    [.started 0 ⟨"ADMIN_SEED|b1\n", .sorted⟩, .thread 0 .locked, .thread 0 .persisted,
      .started 0 ⟨"ADMIN_SPEND_AT|b1\nb2\n", .sorted⟩, .thread 1 .locked, .thread 1 .persisted,
      .thread 1 .replied]
    (fun followed => (followed.2.threads[1]?).any fun connection =>
      connection.process = 0 ∧ connection.command.text = "ADMIN_SPEND_AT|b1\nb2\n" ∧
        connection.activity.reply = some (some "REPLY_OK\n")) (by decide +kernel)
  obtain ⟨connection, present, isAnswered⟩ := (Option.any_eq_true _ _).mp answered
  obtain ⟨atFirst, received, replied⟩ := of_decide_eq_true isAnswered
  have names : ∀ event ∈ trace'.map Prod.snd, event.Starts NamesBearer := by
    rw [labels]
    decide +kernel
  have named : ∀ i, OneLine (["N1", "N2"].get i) ∧ ["N1", "N2"].get i ≠ "" := by
    decide +kernel
  have invoked : HabiAdmin.readArgs "habi_admin" ["localhost:9001", "spend", "b1\nb2"] =
      .ok ("localhost:9001", .spendAt "b1\nb2") := rfl
  have cut : firstLine "b1\nb2" = "b1" := by decide +kernel
  obtain ⟨trace, last, reply, follows, writes, member, text, isText, printed⟩ :=
    client_prints_reply (fun i => reportable_new (named i)) run
      (fun entry member => names _ (List.mem_map_of_mem member)) invoked present
      (received.trans (by decide +kernel)) replied
  obtain rfl : "REPLY_OK\n" = text := by simpa using isText
  rw [atFirst, AdminMessage.upToBreak, cut] at member
  exact ⟨trace', last', trace, last, _, reply, run, follows, writes, member, printed⟩

end Deployment

end HabiCore
