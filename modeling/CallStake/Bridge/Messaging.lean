import CallStake.Lib.Store
import CallStake.Lib.Trace
import CallStake.Shared.Host

/-!
# Cross-chain messages (`bridge::messaging`)

Messages from this chain to others, which validators relay and confirm. Messages to one chain are numbered
(`nonce`) and are to be confirmed in that order.

* `sendCrossChainMessage`, `relayMessageToTargetChain`, `confirmMessageDelivery`, `receiveMessageCallback`,
  `markMessageFailed`, `retryFailedMessage`, `expireTimedOutMessage`: the life of a message. These are functions
  of a module, so an error keeps the writes made before it (`Tx.settle`).
* `confirmMessageDelivery` counts the nonce up before it looks at the proof.
* `Event`, `next`: calls of the functions in any order; in between, ledgers close and the governance module
  changes the bridges and their validators as it likes.

Left out: events, and the arguments that only they or nothing uses (the relay proof, the payload of a callback).
-/

namespace CallStake.Messaging

open Tx

def MAX_MESSAGE_SIZE : Nat := 4096
def MESSAGE_TIMEOUT : Nat := 86400

/-- `monitoring::ChainId`. -/
inductive ChainId where
  | stellar
  | ethereum
  | bitcoin
  | polygon
  | bnb
  deriving DecidableEq

/-- `chain as u32`. -/
def ChainId.code : ChainId → Nat
  | stellar => 0
  | ethereum => 1
  | bitcoin => 2
  | polygon => 3
  | bnb => 4

theorem ChainId.code_inj {a b : ChainId} (h : a.code = b.code) : a = b := by
  cases a <;> cases b <;> first | rfl | cases h

/-- How far a message has come. -/
inductive MessageStatus where
  | pending
  | relayed
  | delivered
  | failed
  | callbackReceived
  deriving DecidableEq

/-- A message to another chain. -/
structure CrossChainMessage where
  id : Nat
  sourceChain : ChainId
  targetChain : ChainId
  sender : Address
  targetContract : Bytes
  payload : Bytes
  gasLimit : Nat
  callbackRequired : Bool
  status : MessageStatus
  sentAt : Nat
  deliveredAt : Option Nat
  nonce : Nat

/-- The entries under `MessagingKey`, and the validators of the bridges of the governance module. -/
structure Storage where
  messages : Store Nat CrossChainMessage
  nextMessageId : Nat
  bridgeForChain : Store Nat Nat
  outboundSeq : Store Nat Nat
  expectedNonce : Store Nat Nat
  bridges : Store Nat (List Address)

def Storage.deployed : Storage := ⟨∅, 1, ∅, ∅, ∅, ∅⟩

/-- The ledger and the storage. -/
structure World where
  ledger : Ledger
  store : Storage

/-- An error is a text. -/
abbrev M := Tx World (Fault String)

def fault (text : String) : Fault String := .err text

section Helpers

variable {α : Type}

def load (f : Storage → α) : M α := Tx.gets fun w => f w.store

def save (f : Storage → Storage) : M Unit := Tx.modify fun w => { w with store := f w.store }

def timestamp : M Nat := Tx.gets (·.ledger.timestamp)

/-- `n + 1` on `u64`, which traps on overflow. -/
def succ (n : Nat) : M Nat := Tx.ofOption (if n + 1 ≤ u64Max then some (n + 1) else none) .panic

def expectedNonce (s : Storage) (chain : ChainId) : Nat := (s.expectedNonce.lookup chain.code).getD 0

def assignOutboundNonce (chain : ChainId) : M Nat := do
  let seq ← load fun s => (s.outboundSeq.lookup chain.code).getD 0
  let seq' ← succ seq
  save fun s => { s with outboundSeq := s.outboundSeq.insert chain.code seq' }
  return seq

def nextMessageId : M Nat := do
  let id ← load (·.nextMessageId)
  let id' ← succ id
  save fun s => { s with nextMessageId := id' }
  return id

def getMessage (id : Nat) : M CrossChainMessage := do
  Tx.ofOption (← load (·.messages.lookup id)) (fault "Message not found")

def saveMessage (msg : CrossChainMessage) : M Unit :=
  save fun s => { s with messages := s.messages.insert msg.id msg }

def removeMessage (id : Nat) : M Unit := save fun s => { s with messages := s.messages.erase id }

def bridgeIdForChain (chain : ChainId) : M Nat := do
  Tx.ofOption (← load (·.bridgeForChain.lookup chain.code)) (fault "No bridge for chain")

/-- `governance::get_bridge_validators`. -/
def getBridgeValidators (bridgeId : Nat) : M (List Address) := do
  Tx.ofOption (← load (·.bridges.lookup bridgeId)) (fault "Bridge not found")

/-- `validator` is a validator of the bridge of the chain. -/
def ensureValidator (chain : ChainId) (validator : Address) : M Unit := do
  let bridgeId ← bridgeIdForChain chain
  let validators ← getBridgeValidators bridgeId
  failIf (validator ∉ validators) (fault "Not authorized validator")

end Helpers

/-! ## The functions of the module -/

def registerBridgeForChain (chain : ChainId) (bridgeId : Nat) : M Unit :=
  save fun s => { s with bridgeForChain := s.bridgeForChain.insert chain.code bridgeId }

def sendCrossChainMessage (auth : Auth) (sender : Address) (targetChain : ChainId)
    (targetContract payload : Bytes) (gasLimit : Nat) (callbackRequired : Bool) : M Nat := do
  requireAuth auth sender
  failIf (MAX_MESSAGE_SIZE < payload.length) (fault "Payload too large")
  let id ← nextMessageId
  let nonce ← assignOutboundNonce targetChain
  let sentAt ← timestamp
  saveMessage ⟨id, .stellar, targetChain, sender, targetContract, payload, gasLimit, callbackRequired, .pending,
    sentAt, none, nonce⟩
  return id

def relayMessageToTargetChain (auth : Auth) (messageId : Nat) (validator : Address) : M Unit := do
  requireAuth auth validator
  let msg ← getMessage messageId
  failIf (msg.status ≠ .pending) (fault "Already relayed")
  ensureValidator msg.targetChain validator
  saveMessage { msg with status := .relayed }

/-- Any proof but the empty one is accepted. -/
def verifyDeliveryProof (proof : Bytes) : M Unit := failIf (proof = []) (fault "Empty delivery proof")

def verifyCallbackProof (proof : Bytes) : M Unit := failIf (proof = []) (fault "Empty callback proof")

def confirmMessageDelivery (auth : Auth) (messageId : Nat) (relayer : Address) (deliveryProof : Bytes) :
    M Unit := do
  requireAuth auth relayer
  let msg ← getMessage messageId
  ensureValidator msg.targetChain relayer
  failIf (msg.status ≠ .relayed) (fault "Message not relayed")
  let expected ← load fun s => expectedNonce s msg.targetChain
  failIf (msg.nonce < expected) (fault "Duplicate nonce: already delivered")
  failIf (expected < msg.nonce) (fault "Out-of-order nonce: expected lower sequence")
  let expected' ← succ expected
  save fun s => { s with expectedNonce := s.expectedNonce.insert msg.targetChain.code expected' }
  verifyDeliveryProof deliveryProof
  let now ← timestamp
  saveMessage { msg with status := .delivered, deliveredAt := some now }
  Tx.when (msg.callbackRequired = false) (removeMessage messageId)

def receiveMessageCallback (auth : Auth) (originalMessageId : Nat) (relayer : Address)
    (callbackProof : Bytes) : M Unit := do
  requireAuth auth relayer
  let msg ← getMessage originalMessageId
  ensureValidator msg.targetChain relayer
  failIf (msg.callbackRequired = false) (fault "Callback not expected")
  failIf (msg.status ≠ .delivered) (fault "Message not delivered")
  verifyCallbackProof callbackProof
  saveMessage { msg with status := .callbackReceived }
  removeMessage originalMessageId

/-- What `mark_message_failed` and `expire_timed_out_message` end with. -/
def failMessage (msg : CrossChainMessage) : M Unit := do
  failIf (msg.status = .delivered ∨ msg.status = .callbackReceived) (fault "Message already completed")
  saveMessage { msg with status := .failed }

def markMessageFailed (messageId : Nat) : M Unit := do
  let msg ← getMessage messageId
  failMessage msg

def retryFailedMessage (messageId : Nat) : M Unit := do
  let msg ← getMessage messageId
  failIf (msg.status ≠ .failed) (fault "Message not failed")
  saveMessage { msg with status := .pending }

def expireTimedOutMessage (messageId : Nat) : M Unit := do
  let msg ← getMessage messageId
  let now ← timestamp
  failIf (now - msg.sentAt < MESSAGE_TIMEOUT) (fault "Message not timed out yet")
  failMessage msg

/-! ## Runs -/

/-- The entrypoints with their arguments. -/
inductive Call where
  | registerBridgeForChain (chain : ChainId) (bridgeId : Nat)
  | sendCrossChainMessage (sender : Address) (targetChain : ChainId) (targetContract payload : Bytes)
      (gasLimit : Nat) (callbackRequired : Bool)
  | relayMessageToTargetChain (messageId : Nat) (validator : Address)
  | confirmMessageDelivery (messageId : Nat) (relayer : Address) (deliveryProof : Bytes)
  | receiveMessageCallback (originalMessageId : Nat) (relayer : Address) (callbackProof : Bytes)
  | markMessageFailed (messageId : Nat)
  | retryFailedMessage (messageId : Nat)
  | expireTimedOutMessage (messageId : Nat)

def invoke (auth : Auth) : Call → M Unit
  | .registerBridgeForChain chain bridgeId => registerBridgeForChain chain bridgeId
  | .sendCrossChainMessage sender targetChain targetContract payload gasLimit callbackRequired =>
    Tx.void (sendCrossChainMessage auth sender targetChain targetContract payload gasLimit callbackRequired)
  | .relayMessageToTargetChain id validator => relayMessageToTargetChain auth id validator
  | .confirmMessageDelivery id relayer proof => confirmMessageDelivery auth id relayer proof
  | .receiveMessageCallback id relayer proof => receiveMessageCallback auth id relayer proof
  | .markMessageFailed id => markMessageFailed id
  | .retryFailedMessage id => retryFailedMessage id
  | .expireTimedOutMessage id => expireTimedOutMessage id

/-- `govern`: the governance module replaces the validators of the bridges. -/
inductive Event where
  | call (auth : Auth) (c : Call)
  | govern (bridges : Store Nat (List Address))
  | advance (ledger : Ledger)

def next (w : World) : Event → World
  | .call auth c => (invoke auth c).settle w
  | .govern bridges => { w with store.bridges := bridges }
  | .advance ledger => { w with ledger }

/-- The call of the event returns. -/
def Accepted (w : World) : Event → Prop
  | .call auth c => (invoke auth c w).1 = .ok ()
  | _ => False

instance (w : World) : (ev : Event) → Decidable (Accepted w ev)
  | .call auth c =>
    match h : (invoke auth c w).1 with
    | .ok () => isTrue h
    | .error e => isFalse fun ha => by
      rw [Accepted, h] at ha
      cases ha
  | .govern _ => inferInstanceAs (Decidable False)
  | .advance _ => inferInstanceAs (Decidable False)

def Allowed (w : World) : Event → Prop
  | .advance ledger => w.ledger.Before ledger
  | _ => True

instance (w : World) : (ev : Event) → Decidable (Allowed w ev)
  | .call _ _ => inferInstanceAs (Decidable True)
  | .govern _ => inferInstanceAs (Decidable True)
  | .advance ledger => inferInstanceAs (Decidable (w.ledger.Before ledger))

/-- The step relation of the runs. -/
def Step (w : World) (ev : Event) (w' : World) : Prop := Allowed w ev ∧ w' = next w ev

def World.deployed (ledger : Ledger) : World := ⟨ledger, .deployed⟩

/-! ## What a call that returned did -/

section Inversion

variable {auth : Auth} {w w' : World} {u : Unit} {id : Nat}

section Peel

variable {α β : Type} {b : β}

theorem bind_load_ok {f : Storage → α} {k : α → M β} :
    (load f >>= k) w = (.ok b, w') ↔ k (f w.store) w = (.ok b, w') := Iff.rfl

theorem bind_save_ok {f : Storage → Storage} {k : Unit → M β} :
    (save f >>= k) w = (.ok b, w') ↔ k () { w with store := f w.store } = (.ok b, w') := Iff.rfl

theorem bind_timestamp_ok {k : Nat → M β} :
    (timestamp >>= k) w = (.ok b, w') ↔ k w.ledger.timestamp w = (.ok b, w') := Iff.rfl

theorem save_ok {f : Storage → Storage} : save f w = (.ok u, w') ↔ { w with store := f w.store } = w' := modify_ok

theorem bind_saveMessage_ok {msg : CrossChainMessage} {k : Unit → M β} :
    (saveMessage msg >>= k) w = (.ok b, w') ↔
      k () { w with store.messages := w.store.messages.insert msg.id msg } = (.ok b, w') := Iff.rfl

theorem saveMessage_ok {msg : CrossChainMessage} : saveMessage msg w = (.ok u, w') ↔
    { w with store.messages := w.store.messages.insert msg.id msg } = w' := by rw [saveMessage, save_ok]

theorem removeMessage_ok : removeMessage id w = (.ok u, w') ↔
    { w with store.messages := w.store.messages.erase id } = w' := by rw [removeMessage, save_ok]

theorem succ_ok {n m : Nat} : succ n w = (.ok m, w') ↔ n + 1 ≤ u64Max ∧ n + 1 = m ∧ w = w' := by
  rw [succ, ofOption_ok]
  by_cases hn : n + 1 ≤ u64Max <;> simp [hn]

theorem bind_succ_ok {n : Nat} {k : Nat → M β} :
    (succ n >>= k) w = (.ok b, w') ↔ n + 1 ≤ u64Max ∧ k (n + 1) w = (.ok b, w') := by
  rw [succ, bind_ofOption_ok]
  by_cases hn : n + 1 ≤ u64Max <;> simp [hn]

theorem getMessage_ok {msg : CrossChainMessage} : getMessage id w = (.ok msg, w') ↔
    w.store.messages.lookup id = some msg ∧ w = w' := ofOption_ok

theorem bind_getMessage_ok {k : CrossChainMessage → M β} : (getMessage id >>= k) w = (.ok b, w') ↔
    ∃ msg, w.store.messages.lookup id = some msg ∧ k msg w = (.ok b, w') := bind_ofOption_ok

/-- `v` is a validator of the bridge of the chain. -/
def IsValidator (w : World) (chain : ChainId) (v : Address) : Prop :=
  ∃ bridgeId ∈ w.store.bridgeForChain.lookup chain.code, ∃ validators ∈ w.store.bridges.lookup bridgeId,
    v ∈ validators
  deriving Decidable

theorem ensureValidator_ok {chain : ChainId} {v : Address} :
    ensureValidator chain v w = (.ok u, w') ↔ IsValidator w chain v ∧ w = w' := by
  simp only [ensureValidator, bridgeIdForChain, getBridgeValidators, bind_assoc_eq, bind_load_ok,
    bind_ofOption_ok, failIf_ok, IsValidator, Option.mem_def, not_not]
  constructor
  · rintro ⟨bridgeId, hb, validators, hv, hmem, h⟩
    exact ⟨⟨bridgeId, hb, validators, hv, hmem⟩, h⟩
  · rintro ⟨⟨bridgeId, hb, validators, hv, hmem⟩, h⟩
    exact ⟨bridgeId, hb, validators, hv, hmem, h⟩

theorem bind_ensureValidator_ok {chain : ChainId} {v : Address} {k : Unit → M β} :
    (ensureValidator chain v >>= k) w = (.ok b, w') ↔ IsValidator w chain v ∧ k () w = (.ok b, w') := by
  simp only [bind_ok, ensureValidator_ok]
  constructor
  · rintro ⟨_, _, ⟨hv, rfl⟩, h⟩
    exact ⟨hv, h⟩
  · rintro ⟨hv, h⟩
    exact ⟨(), w, ⟨hv, rfl⟩, h⟩

end Peel

theorem sendCrossChainMessage_ok {sender : Address} {chain : ChainId} {contract payload : Bytes} {gas : Nat}
    {callback : Bool}
    (h : sendCrossChainMessage auth sender chain contract payload gas callback w = (.ok id, w')) :
    id = w.store.nextMessageId ∧ ∃ msg : CrossChainMessage, msg.id = id ∧ msg.status = .pending ∧
      ∃ seq, w' = { w with
        store.nextMessageId := id + 1
        store.outboundSeq := seq
        store.messages := w.store.messages.insert id msg } := by
  simp only [sendCrossChainMessage, nextMessageId, assignOutboundNonce, bind_assoc_eq, pure_bind_eq,
    bind_requireAuth_ok, bind_failIf_ok, bind_load_ok, bind_succ_ok, bind_save_ok, bind_timestamp_ok,
    bind_saveMessage_ok, pure_ok] at h
  obtain ⟨-, -, -, -, rfl, rfl⟩ := h
  exact ⟨rfl, _, rfl, rfl, _, rfl⟩

/-- A message gets another status. -/
def World.restated (w : World) (msg : CrossChainMessage) (status : MessageStatus) : World :=
  { w with store.messages := w.store.messages.insert msg.id { msg with status } }

theorem relayMessageToTargetChain_ok {validator : Address}
    (h : relayMessageToTargetChain auth id validator w = (.ok u, w')) :
    ∃ msg, w.store.messages.lookup id = some msg ∧ msg.status = .pending ∧ w' = w.restated msg .relayed := by
  simp only [relayMessageToTargetChain, bind_requireAuth_ok, bind_getMessage_ok, bind_failIf_ok,
    bind_ensureValidator_ok, saveMessage_ok] at h
  obtain ⟨-, msg, hmsg, hstatus, -, rfl⟩ := h
  exact ⟨msg, hmsg, not_not.mp hstatus, rfl⟩

/-- The world after the delivery of a message: it is kept if there is a callback to come. -/
def World.delivered (w : World) (id : Nat) (msg : CrossChainMessage) : World :=
  { w with
    store.expectedNonce := w.store.expectedNonce.insert msg.targetChain.code (msg.nonce + 1)
    store.messages :=
      let messages := w.store.messages.insert msg.id
        { msg with status := .delivered, deliveredAt := some w.ledger.timestamp }
      if msg.callbackRequired = false then messages.erase id else messages }

theorem confirmMessageDelivery_ok {relayer : Address} {proof : Bytes}
    (h : confirmMessageDelivery auth id relayer proof w = (.ok u, w')) :
    ∃ msg, w.store.messages.lookup id = some msg ∧ msg.status = .relayed ∧
      msg.nonce = expectedNonce w.store msg.targetChain ∧ w' = w.delivered id msg := by
  simp only [confirmMessageDelivery, bind_requireAuth_ok, bind_getMessage_ok, bind_failIf_ok,
    bind_ensureValidator_ok, bind_load_ok, bind_succ_ok, bind_save_ok, verifyDeliveryProof, bind_timestamp_ok,
    bind_saveMessage_ok, when_ok, removeMessage_ok] at h
  obtain ⟨-, msg, hmsg, -, hstatus, hge, hle, -, -, h⟩ := h
  have hnonce : msg.nonce = expectedNonce w.store msg.targetChain := by omega
  refine ⟨msg, hmsg, not_not.mp hstatus, hnonce, ?_⟩
  rw [← hnonce] at h
  rw [World.delivered]
  split at h
  · rename_i hcallback
    rw [if_pos hcallback]
    exact h.symm
  · rename_i hcallback
    rw [if_neg hcallback]
    exact h.symm

theorem receiveMessageCallback_ok {relayer : Address} {proof : Bytes}
    (h : receiveMessageCallback auth id relayer proof w = (.ok u, w')) :
    ∃ msg, w.store.messages.lookup id = some msg ∧ msg.callbackRequired = true ∧ msg.status = .delivered ∧
      w' = { w with store.messages :=
        (w.store.messages.insert msg.id { msg with status := .callbackReceived }).erase id } := by
  simp only [receiveMessageCallback, verifyCallbackProof, bind_requireAuth_ok, bind_getMessage_ok,
    bind_failIf_ok, bind_ensureValidator_ok, bind_saveMessage_ok, removeMessage_ok, Bool.not_eq_false] at h
  obtain ⟨-, msg, hmsg, -, hcallback, hstatus, -, rfl⟩ := h
  exact ⟨msg, hmsg, hcallback, not_not.mp hstatus, rfl⟩

theorem failMessage_ok {msg : CrossChainMessage} (h : failMessage msg w = (.ok u, w')) :
    msg.status ≠ .delivered ∧ w' = w.restated msg .failed := by
  simp [failMessage, saveMessage_ok] at h
  exact ⟨h.1.1, h.2.symm⟩

theorem markMessageFailed_ok (h : markMessageFailed id w = (.ok u, w')) :
    ∃ msg, w.store.messages.lookup id = some msg ∧ msg.status ≠ .delivered ∧ w' = w.restated msg .failed := by
  obtain ⟨msg, hmsg, h⟩ := bind_getMessage_ok.mp h
  exact ⟨msg, hmsg, failMessage_ok h⟩

theorem expireTimedOutMessage_ok (h : expireTimedOutMessage id w = (.ok u, w')) :
    ∃ msg, w.store.messages.lookup id = some msg ∧ msg.status ≠ .delivered ∧ w' = w.restated msg .failed := by
  obtain ⟨msg, hmsg, h⟩ := bind_getMessage_ok.mp h
  simp only [bind_timestamp_ok, bind_failIf_ok] at h
  exact ⟨msg, hmsg, failMessage_ok h.2⟩

theorem retryFailedMessage_ok (h : retryFailedMessage id w = (.ok u, w')) :
    ∃ msg, w.store.messages.lookup id = some msg ∧ msg.status = .failed ∧ w' = w.restated msg .pending := by
  simp only [retryFailedMessage, bind_getMessage_ok, bind_failIf_ok, saveMessage_ok] at h
  obtain ⟨msg, hmsg, hstatus, rfl⟩ := h
  exact ⟨msg, hmsg, not_not.mp hstatus, rfl⟩

end Inversion

end CallStake.Messaging
