import ConductorRs.Concurrency.Sequential
import ConductorRs.Metatheory.QuantityGrammar
import ConductorRs.Metatheory.RpcWire

/-!
The clients of a sequencer node refine the calls of the controller.

`Node` is what a sequencer node is to the controller: a result or an error for
each call. A backend implements a node when it answers the requests of the
clients with the encodings of its answers. Requests tell calls apart and every
result is read back from its encoding, so every node has a backend, and a task of
the controller ends over the wire exactly as it ends against the node.
-/
namespace ConductorRs

theorem Hash.toList_display (hash : Hash) :
    hash.display.toList = '0' :: 'x' :: hash.bytes.flatMap hexPair := by
  have hmark : ("0x" : String).toList = ['0', 'x'] := rfl
  simp only [Hash.display, String.toList_append, String.toList_join, hmark, List.flatMap_map]
  simp only [String.toList_ofList]
  rfl

theorem Hash.parse_display (hash : Hash) : Hash.parse hash.display = .ok hash := by
  have hmark : stripPrefix "0x" hash.display = some (hash.bytes.flatMap hexPair) :=
    stripPrefix_eq_some.mpr hash.toList_display
  have hdecode := decodeHexBytes_hexPairs hash.bytes
  obtain ⟨hdigits, hlength⟩ := digits_of_decodeHexBytes hdecode
  have hsize : (String.ofList (hash.bytes.flatMap hexPair)).utf8ByteSize = 64 := by
    rw [utf8ByteSize_hexDigits hdigits, hlength, hash.size]
  simp only [Hash.parse, hmark, hsize, ne_eq, not_true_eq_false, if_false, hdecode, hash.size,
    dif_pos]

theorem Hash.display_injective {hash other : Hash} (h : hash.display = other.display) :
    hash = other := by
  have hparse := hash.parse_display
  rw [h, other.parse_display] at hparse
  exact (Except.ok.inj hparse).symm

theorem deserializeQuantity_ofNat {n : Nat} (h : n < UInt64.size) :
    deserializeQuantity (.number (.posInt (UInt64.ofNat n))) = .ok n := by
  have hn : (UInt64.ofNat n).toNat = n := UInt64.toNat_ofNat_of_lt' h
  change Except.ok (UInt64.ofNat n).toNat = _
  rw [hn]

theorem Hash.fromValue_display (hash : Hash) :
    Hash.fromValue (.string hash.display) = .ok hash := by
  rw [Hash.fromValue, hash.parse_display]
  rfl

theorem Hash.optionFromValue_display (hash : Option Hash) :
    Hash.optionFromValue ((hash.map fun hash => Value.string hash.display).getD .null) =
      .ok hash := by
  cases hash with
  | none => rfl
  | some hash =>
      change (Hash.fromValue (.string hash.display)).map some = _
      rw [hash.fromValue_display]
      rfl

def L2BlockRef.Sendable (ref : L2BlockRef) : Prop :=
  ref.number < UInt64.size ∧ ref.time < UInt64.size

theorem L2BlockRef.fromValue_toValue {ref : L2BlockRef} (h : ref.Sendable) :
    L2BlockRef.fromValue ref.toValue = .ok ref := by
  simp only [L2BlockRef.fromValue, L2BlockRef.toValue, L2BlockRef.ofMembers, List.foldlM,
    L2BlockRef.readMember, readField, Hash.optionFromValue_display, deserializeQuantity_ofNat h.1,
    deserializeQuantity_ofNat h.2]
  rfl

theorem SyncStatus.fromValue_toValue {status : SyncStatus} (hhead : status.unsafeL2.Sendable)
    (hsafe : status.safeL2.Sendable) : SyncStatus.fromValue status.toValue = .ok status := by
  simp only [SyncStatus.fromValue, SyncStatus.toValue, SyncStatus.ofMembers, List.foldlM,
    SyncStatus.readMember, readField, L2BlockRef.fromValue_toValue hhead,
    L2BlockRef.fromValue_toValue hsafe]
  rfl

theorem PeerStats.fromValue_toValue {stats : PeerStats} (h : stats.connected < UInt64.size) :
    PeerStats.fromValue stats.toValue = .ok stats := by
  simp only [PeerStats.fromValue, PeerStats.toValue, PeerStats.ofMembers, List.foldlM,
    PeerStats.readMember, readField, deserializeQuantity_ofNat h]
  rfl

def RpcOp.endpoint : RpcOp → Rpc.Endpoint
  | .latestUnsafeBlock | .blockByNumber _ => .execution
  | _ => .node

def RpcOp.method : RpcOp → String
  | .latestUnsafeBlock | .blockByNumber _ => "eth_getBlockByNumber"
  | .startSequencerWithHash _ | .startSequencerParameterless => "admin_startSequencer"
  | .stopSequencer => "admin_stopSequencer"
  | .sequencerActive => "admin_sequencerActive"
  | .conductorEnabled => "admin_conductorEnabled"
  | .syncStatus => "optimism_syncStatus"
  | .peerStats => "opp2p_peerStats"
  | .postUnsafePayload _ => "admin_postUnsafePayload"

def RpcOp.params : RpcOp → List Value
  | .latestUnsafeBlock => [.string "latest", .bool false]
  | .blockByNumber number => [.string (Rpc.hexQuantity number), .bool false]
  | .startSequencerWithHash hash => [.string hash.display]
  | .postUnsafePayload payload => [payload.raw]
  | _ => []

namespace Rpc
open Concurrency

/-- A block, as an execution client answers it. -/
def blockValue (info : BlockInfo) : Value :=
  .object [("hash", .string info.hash.display), ("number", .string (hexQuantity info.number))]

theorem readBlock_blockValue {info : BlockInfo} (h : info.number < UInt64.size) :
    ExecutionClient.readBlock (blockValue info) = .ok info := by
  change (Hash.parse info.hash.display).bind _ = _
  rw [info.hash.parse_display]
  change (parseQuantity (.string (hexQuantity info.number))).bind _ = _
  rw [parseQuantity_hexQuantity h]
  rfl

def request (op : RpcOp) (id : UInt64) : Value :=
  requestValue id op.method (.array op.params)

theorem hexQuantity_injective {n m : Nat} (h : hexQuantity n = hexQuantity m) : n = m := by
  have hdigits : Nat.toDigits 16 n = Nat.toDigits 16 m := by
    have htext := toList_hexQuantity n
    rw [h, toList_hexQuantity m] at htext
    injection htext with _ htail
    injection htail with _ hdigits
    exact hdigits.symm
  rw [← digitsValue_toDigits n, ← digitsValue_toDigits m, hdigits]

theorem hexQuantity_ne_latest (n : Nat) : hexQuantity n ≠ "latest" := by
  intro h
  have htext := toList_hexQuantity n
  rw [h] at htext
  injection htext with hhead
  exact absurd hhead (by decide)

/-- The method and the parameters tell the calls apart. -/
theorem call_of_params {op other : RpcOp} (hmethod : op.method = other.method)
    (hparams : op.params = other.params) : op = other := by
  cases op <;> cases other <;>
    simp only [RpcOp.method, RpcOp.params, List.cons.injEq, Value.string.injEq, and_true,
      reduceCtorEq, String.reduceEq] at hmethod hparams <;>
    first
      | rfl
      | exact absurd hparams (hexQuantity_ne_latest _)
      | exact absurd hparams.symm (hexQuantity_ne_latest _)
      | exact congrArg _ (hexQuantity_injective hparams)
      | exact congrArg _ (Hash.display_injective hparams)
      | exact congrArg _ (congrArg PayloadEnvelope.mk hparams)

theorem request_injective {op other : RpcOp} {id id' : UInt64}
    (h : request op id = request other id') : op = other ∧ id = id' := by
  simp only [request, requestValue, Value.object.injEq, List.cons.injEq, Prod.mk.injEq,
    Value.number.injEq, Number.posInt.injEq, Value.string.injEq, Value.array.injEq, true_and,
    and_true] at h
  obtain ⟨hid, hmethod, hparams⟩ := h
  exact ⟨call_of_params hmethod hparams, hid⟩

structure NodeError where
  code : Int
  message : String
  data : Option Value

def NodeError.toValue (error : NodeError) : Value :=
  .object ([("code", ofInt error.code)] ++ (error.data.map fun data => ("data", data)).toList ++
    [("message", .string error.message)])

def answerValue (id : UInt64) : Except NodeError Value → Value
  | .ok result =>
      .object [("id", .number (.posInt id)), ("jsonrpc", .string "2.0"), ("result", result)]
  | .error error =>
      .object [("error", error.toValue), ("id", .number (.posInt id)), ("jsonrpc", .string "2.0")]

def NodeError.asClientError (error : NodeError) : RpcClientError :=
  .jsonRpc error.code error.message error.data

theorem readError_node {error : NodeError} (h : I64 error.code) :
    readError error.toValue = error.asClientError := by
  obtain ⟨code, message, data⟩ := error
  have hcode : (ofInt code).asI64 = some code := asI64_ofInt h
  cases data with
  | none =>
      change RpcClientError.jsonRpc ((ofInt code).asI64.getD 0) message none = _
      rw [hcode]
      rfl
  | some data =>
      change RpcClientError.jsonRpc ((ofInt code).asI64.getD 0) message (some data) = _
      rw [hcode]
      rfl

theorem readResponse_answerValue (id : UInt64) {answer : Except NodeError Value}
    (h : ∀ error, answer = .error error → I64 error.code) :
    readResponse id (answerValue id answer) = answer.mapError NodeError.asClientError := by
  have hid : checkId id (some (.number (.posInt id))) = .ok () := if_pos rfl
  cases answer with
  | ok result =>
      change (checkId id (some (.number (.posInt id)))).bind _ = _
      rw [hid]
      rfl
  | error error =>
      change (checkId id (some (.number (.posInt id)))).bind _ = _
      rw [hid]
      exact congrArg Except.error (readError_node (h error rfl))

def encode : (op : RpcOp) → op.Result → Value
  | .latestUnsafeBlock, info | .blockByNumber _, info => blockValue info
  | .startSequencerWithHash _, _ | .startSequencerParameterless, _ => .null
  | .postUnsafePayload _, _ => .null
  | .stopSequencer, hash => .string hash.display
  | .sequencerActive, active => .bool active
  | .conductorEnabled, enabled => .bool enabled
  | .syncStatus, status => status.toValue
  | .peerStats, stats => stats.toValue

/-- The numbers of a result fit their type. -/
def Sendable : (op : RpcOp) → op.Result → Prop
  | .latestUnsafeBlock, info | .blockByNumber _, info => info.number < UInt64.size
  | .syncStatus, status => status.unsafeL2.Sendable ∧ status.safeL2.Sendable
  | .peerStats, stats => stats.connected < UInt64.size
  | _, _ => True

/-- What the clients read from a result. -/
def decode : (op : RpcOp) → Value → Except RpcClientError op.Result
  | .latestUnsafeBlock, v | .blockByNumber _, v =>
      (ExecutionClient.readBlock v).mapError .type
  | .startSequencerWithHash _, v | .startSequencerParameterless, v => decodeResult readUnit v
  | .postUnsafePayload _, v => decodeResult readUnit v
  | .stopSequencer, v => decodeResult Hash.fromValue v
  | .sequencerActive, v => decodeResult readBool v
  | .conductorEnabled, v => decodeResult readBool v
  | .syncStatus, v => decodeResult SyncStatus.fromValue v
  | .peerStats, v => decodeResult PeerStats.fromValue v

theorem decode_encode (op : RpcOp) (r : op.Result) (h : Sendable op r) :
    decode op (encode op r) = .ok r := by
  cases op with
  | latestUnsafeBlock | blockByNumber _ =>
      exact congrArg (Except.mapError RpcClientError.type) (readBlock_blockValue h)
  | startSequencerWithHash _ | startSequencerParameterless | postUnsafePayload _ => rfl
  | stopSequencer =>
      exact congrArg (Except.mapError RpcClientError.invalidResponse) (Hash.fromValue_display r)
  | sequencerActive | conductorEnabled => rfl
  | syncStatus =>
      exact congrArg (Except.mapError RpcClientError.invalidResponse)
        (SyncStatus.fromValue_toValue h.1 h.2)
  | peerStats =>
      exact congrArg (Except.mapError RpcClientError.invalidResponse)
        (PeerStats.fromValue_toValue h)

structure Node where
  answer : (op : RpcOp) → Except NodeError op.Result
  sendable : ∀ op r, answer op = .ok r → Sendable op r
  code : ∀ op error, answer op = .error error → I64 error.code

def Node.reply (node : Node) (op : RpcOp) : RpcClients.Reply op :=
  (node.answer op).mapError NodeError.asClientError

/-- The backend answers every request of the clients with the encoded answer of
the node. -/
def Implements (backend : Endpoint → Value → Value) (node : Node) : Prop :=
  ∀ op id, backend op.endpoint (request op id) =
    answerValue id ((node.answer op).map (encode op))

open Classical in
theorem exists_backend (node : Node) : ∃ backend, Implements backend node := by
  let known (v : Value) : Prop := ∃ p : RpcOp × UInt64, request p.1 p.2 = v
  refine ⟨fun _ v => if h : known v then
    answerValue h.choose.2 ((node.answer h.choose.1).map (encode h.choose.1)) else .null, ?_⟩
  intro op id
  have hknown : known (request op id) := ⟨(op, id), rfl⟩
  refine (dif_pos hknown).trans ?_
  obtain ⟨hop, hid⟩ := request_injective hknown.choose_spec
  rw [hop, hid]

theorem read_answer (node : Node) (op : RpcOp) (id : UInt64) :
    (readResponse id (answerValue id ((node.answer op).map (encode op)))).bind (decode op) =
      node.reply op := by
  unfold Node.reply
  cases hanswer : node.answer op with
  | ok r =>
      rw [readResponse_answerValue id (by intro _ h; cases h)]
      exact decode_encode op r (node.sendable op r hanswer)
  | error error =>
      have hcode := node.code op error hanswer
      rw [readResponse_answerValue id (by intro _ h; cases h; exact hcode)]
      rfl

/-- The controller against a node: a call is answered, or the exchange fails. The
state is what was asked. -/
def askNode (node : Node) (asked : List RpcOp) (op : RpcOp) :
    Option String → Option (RpcClients.Reply op × List RpcOp)
  | none => some (node.reply op, asked ++ [op])
  | some err => some (.error (.http err), asked ++ [op])

/-- The counters of the clients, and the requests sent so far. -/
structure Wire where
  nextId : Endpoint → UInt64
  sent : List (Endpoint × Value)

def exchange (backend : Endpoint → Value → Value) (w : Wire) :
    (op : HttpOp Endpoint) → Option String → Option (op.Reply × Wire)
  | .fetchAddNextId client, _ => some (w.nextId client,
      { w with nextId := Function.update w.nextId client (w.nextId client + 1) })
  | .post client v, failure => some (failure.elim (.ok (backend client v)) .error,
      { w with sent := w.sent ++ [(client, v)] })

/-- The wire after the request of a call. -/
def Wire.send (w : Wire) (op : RpcOp) : Wire where
  nextId := Function.update w.nextId op.endpoint (w.nextId op.endpoint + 1)
  sent := w.sent ++ [(op.endpoint, request op (w.nextId op.endpoint))]

def Wire.sendAll (w : Wire) (ops : List RpcOp) : Wire := ops.foldl Wire.send w

theorem askNode_asked {node : Node} {asked asked' : List RpcOp} {op : RpcOp}
    {failure : Option String} {r : RpcClients.Reply op}
    (h : askNode node asked op failure = some (r, asked')) : asked' = asked ++ [op] := by
  cases failure with
  | none =>
      cases h
      rfl
  | some err =>
      cases h
      rfl

theorem runs_asked {node : Node} {α : Type} {t : Task RpcClients α} {asked asked' : List RpcOp}
    {a : α} (h : Runs (askNode node) t asked a asked') : ∃ ops, asked' = asked ++ ops := by
  refine h.keeps (I := fun asked' => ∃ ops, asked' = asked ++ ops) ⟨[], by simp⟩ ?_
  rintro _ op failure r _ ⟨ops, rfl⟩ hop
  exact ⟨ops ++ [op], by rw [askNode_asked hop, List.append_assoc]⟩

/-- What a client makes of an exchange. -/
def readReply (op : RpcOp) (id : UInt64) : Except String Value → RpcClients.Reply op
  | .error err => .error (.http err)
  | .ok response => (readResponse id response).bind (decode op)

/-- Every call of the clients is one id, one request and one decoder. -/
theorem clients_eq (op : RpcOp) :
    clients op = .perform (.fetchAddNextId op.endpoint) fun id =>
      .perform (.post op.endpoint (request op id)) fun reply => .done (readReply op id reply) := by
  have hblock : ∀ r : Except RpcClientError Value,
      ((r.bind (decodeResult Except.ok)).bind fun raw =>
        (ExecutionClient.readBlock raw).mapError RpcClientError.type) =
      r.bind fun raw => (ExecutionClient.readBlock raw).mapError RpcClientError.type := by
    intro r
    cases r with
    | ok raw => rfl
    | error err => rfl
  cases op with
  | latestUnsafeBlock | blockByNumber _ =>
      refine congrArg (Task.perform _) (funext fun id => congrArg (Task.perform _) (funext ?_))
      intro reply
      cases reply with
      | error err => rfl
      | ok response => exact congrArg Task.done (hblock (readResponse id response))
  | _ =>
      refine congrArg (Task.perform _) (funext fun id => congrArg (Task.perform _) (funext ?_))
      intro reply
      cases reply with
      | error err => rfl
      | ok response => rfl

section
variable {backend : Endpoint → Value → Value} {node : Node} (himplements : Implements backend node)
include himplements

/-- One call over the wire is one call of the node. -/
theorem runs_clients (op : RpcOp) {w w' : Wire} {r : RpcClients.Reply op} (asked : List RpcOp) :
    Runs (exchange backend) (clients op) w r w' ↔
      ∃ failure, askNode node asked op failure = some (r, asked ++ [op]) ∧ w' = w.send op := by
  have hread : readReply op (w.nextId op.endpoint)
      (.ok (backend op.endpoint (request op (w.nextId op.endpoint)))) = node.reply op := by
    rw [himplements op]
    exact read_answer node op _
  rw [clients_eq]
  constructor
  · intro h
    cases h with
    | perform x hid h =>
        cases hid
        cases h with
        | perform failure hpost h =>
            cases hpost
            cases h
            refine ⟨failure, ?_, rfl⟩
            cases failure with
            | none => exact congrArg (fun r => some (r, asked ++ [op])) hread.symm
            | some err => rfl
  · rintro ⟨failure, hasked, rfl⟩
    refine .perform failure rfl (.perform failure rfl ?_)
    cases failure with
    | none =>
        cases hasked
        refine runs_done.mpr ⟨hread.symm, rfl⟩
    | some err =>
        cases hasked
        exact .done _ _

theorem runs_interp {α : Type} (t : Task RpcClients α) {w w' : Wire} {a : α}
    (asked : List RpcOp) :
    Runs (exchange backend) (t.interp clients) w a w' ↔
      ∃ ops, Runs (askNode node) t asked a (asked ++ ops) ∧ w' = w.sendAll ops := by
  induction t generalizing w asked with
  | done b =>
      simp only [Task.interp, runs_done]
      constructor
      · rintro ⟨rfl, rfl⟩
        exact ⟨[], ⟨rfl, List.append_nil asked⟩, rfl⟩
      · rintro ⟨ops, ⟨rfl, hops⟩, rfl⟩
        rw [List.append_right_eq_self.mp hops]
        exact ⟨rfl, rfl⟩
  | perform op next ih =>
      constructor
      · intro h
        obtain ⟨r, w₁, hop, hrest⟩ := Runs.of_bind h
        obtain ⟨failure, hasked, rfl⟩ := (runs_clients himplements op asked).mp hop
        obtain ⟨ops, hnode, rfl⟩ := (ih r (asked ++ [op])).mp hrest
        rw [List.append_assoc] at hnode
        exact ⟨op :: ops, .perform failure hasked hnode, rfl⟩
      · rintro ⟨ops, h, rfl⟩
        cases h with
        | perform failure hasked hnode =>
            obtain rfl := askNode_asked hasked
            obtain ⟨rest, hrest⟩ := runs_asked hnode
            rw [List.append_assoc, List.append_cancel_left_eq] at hrest
            subst hrest
            rw [← List.append_assoc] at hnode
            have hop : Runs (exchange backend) (clients op) w _ (w.send op) :=
              (runs_clients himplements op asked).mpr ⟨failure, hasked, rfl⟩
            exact hop.bind ((ih _ (asked ++ [op])).mpr ⟨rest, hnode, rfl⟩)

end

/-- Every node has a backend, and over any backend of it the tasks of the
controller end as they end against the node, with one request for each call in
their order. -/
theorem clients_refine_node (node : Node) :
    (∃ backend, Implements backend node) ∧
    ∀ backend, Implements backend node → ∀ (α : Type) (t : Task RpcClients α) (w w' : Wire) (a : α),
      Runs (exchange backend) (t.interp clients) w a w' ↔
        ∃ ops, Runs (askNode node) t [] a ops ∧ w' = w.sendAll ops :=
  ⟨exists_backend node, fun _ himplements _ t _ _ _ => runs_interp himplements t []⟩

/-- A node with its sequencer stopped at the block of the zero hash. -/
def stoppedAnswer : (op : RpcOp) → Except NodeError op.Result
  | .latestUnsafeBlock | .blockByNumber _ => .ok ⟨.zero, 7⟩
  | .startSequencerWithHash _ => .error ⟨-32602, "too many arguments", none⟩
  | .startSequencerParameterless | .postUnsafePayload _ => .ok ()
  | .stopSequencer => .error ⟨-32000, "sequencer not running", none⟩
  | .sequencerActive => .ok false
  | .conductorEnabled => .ok true
  | .syncStatus => .ok ⟨⟨some .zero, 7, 14⟩, ⟨none, 5, 10⟩⟩
  | .peerStats => .ok ⟨3⟩

theorem stopped_sendable (op : RpcOp) (r : op.Result) (h : stoppedAnswer op = .ok r) :
    Sendable op r := by
  have hsmall : ∀ n < 16, n < UInt64.size := fun n hn => Nat.lt_trans hn (by decide)
  cases op with
  | latestUnsafeBlock | blockByNumber _ =>
      cases h
      exact hsmall 7 (by decide)
  | syncStatus =>
      cases h
      exact ⟨⟨hsmall 7 (by decide), hsmall 14 (by decide)⟩, hsmall 5 (by decide),
        hsmall 10 (by decide)⟩
  | peerStats =>
      cases h
      exact hsmall 3 (by decide)
  | _ => trivial

theorem stopped_code (op : RpcOp) (error : NodeError) (h : stoppedAnswer op = .error error) :
    I64 error.code := by
  cases op with
  | startSequencerWithHash _ | stopSequencer =>
      cases h
      exact ⟨by decide, by decide⟩
  | _ => cases h

def stoppedNode : Node := ⟨stoppedAnswer, stopped_sendable, stopped_code⟩

/-- An automatic start falls back to a start without parameters, after a look at
the latest block: three requests over the wire. -/
theorem automatic_start_over_wire :
    ∃ backend, Implements backend stoppedNode ∧
      Runs (exchange backend) ((SequencerController.startSequencer .auto .zero).interp clients)
        ⟨fun _ => 1, []⟩ (.ok ())
        (Wire.sendAll ⟨fun _ => 1, []⟩ [.startSequencerWithHash .zero, .latestUnsafeBlock,
          .startSequencerParameterless]) := by
  obtain ⟨⟨backend, himplements⟩, hrefines⟩ := clients_refine_node stoppedNode
  refine ⟨backend, himplements, (hrefines backend himplements _ _ _ _ _).mpr ⟨_, ?_, rfl⟩⟩
  exact runs_of_execute_eq (x := none) rfl

end Rpc
end ConductorRs
