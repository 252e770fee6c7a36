import CallStake.Bridge.Messaging

/-!
# In-order delivery of messages

The messages that are confirmed for a chain should have the nonces `0, 1, 2, …` in that order, each message
should be delivered once and called back once, and a confirmation that fails should change nothing.

* `sentId`, `delivery`, `callbackId`: what an accepted event sends, delivers and calls back.
* `DeliveredInOrder`: the property, of a history.
* `Sample.empty_proof_skips_a_message`: the module does not have it. A confirmation with an empty proof fails
  after the nonce was counted up, and its message can never be confirmed.
* `Proven`: no confirmation that passes the other checks has an empty proof. `deliveredInOrder_of_proven`: then
  every run has the property.
-/

namespace CallStake.Messaging

open Tx Store List

/-! ## The property -/

/-- The id of the message that the event sends. -/
def sentId (e : World × Event) : Option Nat :=
  match e.2 with
  | .call auth (.sendCrossChainMessage sender chain contract payload gas callback) =>
    match (sendCrossChainMessage auth sender chain contract payload gas callback e.1).1 with
    | .ok id => some id
    | .error _ => none
  | _ => none

/-- The message that the event delivers, with the id it was confirmed under. -/
def delivery (e : World × Event) : Option (Nat × CrossChainMessage) :=
  match e.2 with
  | .call _ (.confirmMessageDelivery id _ _) =>
    if Accepted e.1 e.2 then (e.1.store.messages.lookup id).map (id, ·) else none
  | _ => none

/-- The id of the message whose callback the event accepts. -/
def callbackId (e : World × Event) : Option Nat :=
  match e.2 with
  | .call _ (.receiveMessageCallback id _ _) => if Accepted e.1 e.2 then some id else none
  | _ => none

/-- The nonce that the event delivers to the chain. -/
def deliveredNonce (chain : ChainId) (e : World × Event) : Option Nat :=
  match delivery e with
  | some (_, msg) => if msg.targetChain = chain then some msg.nonce else none
  | none => none

def deliveredId (e : World × Event) : Option Nat := (delivery e).map (·.1)

structure DeliveredInOrder (hist : List (World × Event)) : Prop where
  fresh : (hist.filterMap sentId).Nodup
  nonces : ∀ chain, (hist.filterMap (deliveredNonce chain)).reverse =
    List.range (hist.filterMap (deliveredNonce chain)).length
  once : (hist.filterMap deliveredId).Nodup
  callback : (hist.filterMap callbackId).Nodup
  rejected : ∀ e ∈ hist, ∀ auth id relayer proof, e.2 = .call auth (.confirmMessageDelivery id relayer proof) →
    ¬ Accepted e.1 e.2 → next e.1 e.2 = e.1

/-- A confirmation that passes all other checks has a proof. -/
def Proven (w : World) : Event → Prop
  | .call auth (.confirmMessageDelivery id relayer proof) =>
    ∀ msg ∈ w.store.messages.lookup id, auth relayer = true → IsValidator w msg.targetChain relayer →
      msg.status = .relayed → msg.nonce = expectedNonce w.store msg.targetChain → msg.nonce + 1 ≤ u64Max →
      proof ≠ []
  | _ => True

instance (w : World) (ev : Event) : Decidable (Proven w ev) := by
  rcases ev with ⟨_, c⟩ | _ | _
  · cases c with
    | confirmMessageDelivery => exact inferInstanceAs (Decidable (∀ _ ∈ _, _))
    | _ => exact isTrue trivial
  · exact isTrue trivial
  · exact isTrue trivial

/-! ## Errors -/

section Errors

variable {w w' : World} {auth : Auth} {c : Call} {id : Nat}

theorem reads_requireAuth (auth : Auth) (a : Address) : Tx.Reads (requireAuth auth a : M Unit) := reads_failIf _ _

theorem reads_getMessage (id : Nat) : Tx.Reads (getMessage id) :=
  reads_bind (reads_gets _) fun _ => reads_ofOption _ _

theorem reads_ensureValidator (chain : ChainId) (v : Address) : Tx.Reads (ensureValidator chain v) :=
  reads_bind (reads_bind (reads_gets _) fun _ => reads_ofOption _ _) fun _ =>
    reads_bind (reads_bind (reads_gets _) fun _ => reads_ofOption _ _) fun _ =>
      reads_failIf _ _

theorem clean_save (f : Storage → Storage) : Tx.Clean (save f) := clean_of_total fun _ _ _ h => by cases h

theorem clean_failMessage (msg : CrossChainMessage) : Tx.Clean (failMessage msg) :=
  clean_bind (reads_failIf _ _) fun _ => clean_save _

/-- Every function but the confirmation fails before it writes. -/
theorem clean_invoke (hc : ∀ id relayer proof, c ≠ .confirmMessageDelivery id relayer proof) :
    Tx.Clean (invoke auth c) := by
  cases c with
  | registerBridgeForChain =>
    simp only [invoke, registerBridgeForChain]
    exact clean_save _
  | sendCrossChainMessage sender =>
    simp only [invoke, Tx.void, sendCrossChainMessage, bind_assoc_eq]
    refine clean_bind (reads_requireAuth auth sender) fun _ => ?_
    refine clean_bind (reads_failIf _ _) fun _ => clean_of_total fun s e s' h => ?_
    -- from here on only a counter that is full can stop the call, and that is a trap
    simp [nextMessageId, load, succ, save, assignOutboundNonce, timestamp, saveMessage] at h
  | relayMessageToTargetChain id validator =>
    exact clean_bind (reads_requireAuth auth validator) fun _ => clean_bind (reads_getMessage id) fun _ =>
      clean_bind (reads_failIf _ _) fun _ => clean_bind (reads_ensureValidator _ _) fun _ =>
        clean_save _
  | confirmMessageDelivery id relayer proof => exact absurd rfl (hc id relayer proof)
  | receiveMessageCallback id relayer =>
    refine clean_bind (reads_requireAuth auth relayer) fun _ => clean_bind (reads_getMessage id) fun _ =>
      clean_bind (reads_ensureValidator _ _) fun _ => clean_bind (reads_failIf _ _) fun _ =>
        clean_bind (reads_failIf _ _) fun _ => clean_bind (reads_failIf _ _) fun _ =>
          clean_of_total fun s e s' h => ?_
    simp [saveMessage, save, removeMessage] at h
  | markMessageFailed id => exact clean_bind (reads_getMessage id) fun _ => clean_failMessage _
  | retryFailedMessage id =>
    exact clean_bind (reads_getMessage id) fun _ => clean_bind (reads_failIf _ _) fun _ =>
      clean_save _
  | expireTimedOutMessage id =>
    exact clean_bind (reads_getMessage id) fun _ => clean_bind (reads_gets _) fun _ =>
      clean_bind (reads_failIf _ _) fun _ => clean_failMessage _

/-- A confirmation that fails with a write in it passed all checks but that of the proof, which is empty. -/
theorem confirmMessageDelivery_error {relayer : Address} {proof : Bytes} {e : String}
    (h : confirmMessageDelivery auth id relayer proof w = (.error (.err e), w')) : w' = w ∨
      ∃ msg, w.store.messages.lookup id = some msg ∧ auth relayer = true ∧
        IsValidator w msg.targetChain relayer ∧ msg.status = .relayed ∧
        msg.nonce = expectedNonce w.store msg.targetChain ∧ msg.nonce + 1 ≤ u64Max ∧ proof = [] := by
  unfold confirmMessageDelivery at h
  obtain heq | ⟨_, hauth, h⟩ := bind_error_of_reads (reads_requireAuth auth relayer) h
  · exact .inl heq
  obtain heq | ⟨msg, hmsg, h⟩ := bind_error_of_reads (reads_getMessage id) h
  · exact .inl heq
  obtain heq | ⟨_, hvalidator, h⟩ := bind_error_of_reads (reads_ensureValidator _ _) h
  · exact .inl heq
  obtain heq | ⟨_, hstatus, h⟩ := bind_error_of_reads (reads_failIf _ _) h
  · exact .inl heq
  obtain heq | ⟨expected, hexpected, h⟩ := bind_error_of_reads (reads_gets _) h
  · exact .inl heq
  obtain heq | ⟨_, hge, h⟩ := bind_error_of_reads (reads_failIf _ _) h
  · exact .inl heq
  obtain heq | ⟨_, hle, h⟩ := bind_error_of_reads (reads_failIf _ _) h
  · exact .inl heq
  obtain heq | ⟨expected', hsucc, h⟩ := bind_error_of_reads (reads_ofOption _ _) h
  · exact .inl heq
  -- the nonce is counted up here
  have hproof : proof = [] := by
    by_contra hne
    simp [save, verifyDeliveryProof, timestamp, saveMessage, removeMessage, hne, when_error] at h
  obtain ⟨hauth, -⟩ := requireAuth_ok.mp hauth
  obtain ⟨hmsg, -⟩ := getMessage_ok.mp hmsg
  obtain ⟨hvalidator, -⟩ := ensureValidator_ok.mp hvalidator
  obtain ⟨hstatus, -⟩ := Tx.failIf_ok.mp hstatus
  have hexpected : expectedNonce w.store msg.targetChain = expected := (Tx.gets_ok.mp hexpected).1
  obtain ⟨hge, -⟩ := Tx.failIf_ok.mp hge
  obtain ⟨hle, -⟩ := Tx.failIf_ok.mp hle
  obtain ⟨hmax, -⟩ := succ_ok.mp hsucc
  have hnonce : msg.nonce = expectedNonce w.store msg.targetChain := by omega
  exact .inr ⟨msg, hmsg, hauth, hvalidator, not_not.mp hstatus, hnonce, by omega, hproof⟩

end Errors

/-! ## Steps -/

/-- What the event did to the messages and the counters, with what it is in the history. -/
inductive Effect (w : World) (ev : Event) (w' : World) : Prop where
  | quiet (hsent : sentId (w, ev) = none) (hdelivery : delivery (w, ev) = none)
      (hcallback : callbackId (w, ev) = none) (hmessages : w'.store.messages = w.store.messages)
      (hnext : w'.store.nextMessageId = w.store.nextMessageId)
      (hnonce : w'.store.expectedNonce = w.store.expectedNonce)
  | sent {msg : CrossChainMessage} (hsent : sentId (w, ev) = some w.store.nextMessageId)
      (hdelivery : delivery (w, ev) = none) (hcallback : callbackId (w, ev) = none)
      (hid : msg.id = w.store.nextMessageId)
      (hmessages : w'.store.messages = w.store.messages.insert w.store.nextMessageId msg)
      (hnext : w'.store.nextMessageId = w.store.nextMessageId + 1)
      (hnonce : w'.store.expectedNonce = w.store.expectedNonce)
  | restated {id : Nat} {msg : CrossChainMessage} {status : MessageStatus} (hsent : sentId (w, ev) = none)
      (hdelivery : delivery (w, ev) = none) (hcallback : callbackId (w, ev) = none)
      (hmsg : w.store.messages.lookup id = some msg) (hopen : msg.status ≠ .delivered)
      (hw' : w' = w.restated msg status)
  | delivered {id : Nat} {msg : CrossChainMessage} (hsent : sentId (w, ev) = none)
      (hdelivery : delivery (w, ev) = some (id, msg)) (hcallback : callbackId (w, ev) = none)
      (hmsg : w.store.messages.lookup id = some msg) (hstatus : msg.status = .relayed)
      (hnonce : msg.nonce = expectedNonce w.store msg.targetChain) (hw' : w' = w.delivered id msg)
  | calledBack {id : Nat} {msg : CrossChainMessage} (hsent : sentId (w, ev) = none)
      (hdelivery : delivery (w, ev) = none) (hcallback : callbackId (w, ev) = some id)
      (hmsg : w.store.messages.lookup id = some msg)
      (hw' : w' = { w with store.messages :=
        (w.store.messages.insert msg.id { msg with status := .callbackReceived }).erase id })

section Steps

variable {w w' : World} {ev : Event} {auth : Auth} {c : Call} {u : Unit}

theorem sentId_rejected (h : ¬ Accepted w ev) : sentId (w, ev) = none := by
  unfold sentId
  split
  · rename_i auth sender chain contract payload gas callback hev
    dsimp only at hev
    subst hev
    split
    · rename_i id hok
      refine absurd ?_ h
      rcases hx : sendCrossChainMessage auth sender chain contract payload gas callback w with ⟨r, w₁⟩
      rw [hx] at hok
      cases hok
      have hvoid : Tx.void (sendCrossChainMessage auth sender chain contract payload gas callback) w =
          (.ok (), w₁) := Tx.void_ok.mpr ⟨id, hx⟩
      rw [Accepted, invoke, hvoid]
    · rfl
  · rfl

theorem delivery_rejected (h : ¬ Accepted w ev) : delivery (w, ev) = none := by
  unfold delivery
  split
  · exact if_neg h
  · rfl

theorem callbackId_rejected (h : ¬ Accepted w ev) : callbackId (w, ev) = none := by
  unfold callbackId
  split
  · exact if_neg h
  · rfl

theorem invoke_effect (h : invoke auth c w = (.ok u, w')) : Effect w (.call auth c) w' := by
  have haccepted : Accepted w (.call auth c) := by rw [Accepted, h]
  cases c with
  | registerBridgeForChain =>
    rw [invoke, registerBridgeForChain, save_ok] at h
    subst h
    exact .quiet rfl rfl rfl rfl rfl rfl
  | sendCrossChainMessage sender chain contract payload gas callback =>
    obtain ⟨id, h⟩ := Tx.void_ok.mp h
    obtain ⟨rfl, msg, hid, -, seq, rfl⟩ := sendCrossChainMessage_ok h
    have hsent : sentId (w, .call auth (.sendCrossChainMessage sender chain contract payload gas callback)) =
        some w.store.nextMessageId := by
      unfold sentId
      dsimp only
      rw [h]
    exact .sent hsent rfl rfl hid rfl rfl rfl
  | relayMessageToTargetChain =>
    obtain ⟨msg, hmsg, hstatus, hw'⟩ := relayMessageToTargetChain_ok h
    exact .restated rfl rfl rfl hmsg (by rw [hstatus]; exact nofun) hw'
  | confirmMessageDelivery id relayer proof =>
    obtain ⟨msg, hmsg, hstatus, hnonce, hw'⟩ := confirmMessageDelivery_ok h
    have hdelivery : delivery (w, .call auth (.confirmMessageDelivery id relayer proof)) = some (id, msg) := by
      unfold delivery
      dsimp only
      rw [if_pos haccepted, hmsg, Option.map_some]
    exact .delivered rfl hdelivery rfl hmsg hstatus hnonce hw'
  | receiveMessageCallback =>
    obtain ⟨msg, hmsg, -, -, hw'⟩ := receiveMessageCallback_ok h
    exact .calledBack rfl rfl (if_pos haccepted) hmsg hw'
  | markMessageFailed =>
    obtain ⟨msg, hmsg, hopen, hw'⟩ := markMessageFailed_ok h
    exact .restated rfl rfl rfl hmsg hopen hw'
  | retryFailedMessage =>
    obtain ⟨msg, hmsg, hstatus, hw'⟩ := retryFailedMessage_ok h
    exact .restated rfl rfl rfl hmsg (by rw [hstatus]; exact nofun) hw'
  | expireTimedOutMessage =>
    obtain ⟨msg, hmsg, hopen, hw'⟩ := expireTimedOutMessage_ok h
    exact .restated rfl rfl rfl hmsg hopen hw'

/-- A call that is rejected leaves the world alone, if a confirmation has its proof. -/
theorem next_of_rejected (hproven : Proven w (.call auth c)) (h : ¬ Accepted w (.call auth c)) :
    next w (.call auth c) = w := by
  have hnot : ∀ v w₁, invoke auth c w ≠ (.ok v, w₁) := fun v w₁ hok => h (by rw [Accepted, hok])
  by_cases hc : ∃ id relayer proof, c = .confirmMessageDelivery id relayer proof
  · obtain ⟨id, relayer, proof, rfl⟩ := hc
    show Tx.settle (invoke auth _) w = w
    unfold Tx.settle
    rcases hx : invoke auth (.confirmMessageDelivery id relayer proof) w with ⟨r, w₁⟩
    rcases r with (e | _) | v
    · obtain heq | ⟨msg, hmsg, hauth, hvalidator, hstatus, hnonce, hmax, hempty⟩ :=
        confirmMessageDelivery_error hx
      · exact heq
      · exact absurd hempty (hproven msg hmsg hauth hvalidator hstatus hnonce hmax)
    · rfl
    · exact absurd hx (hnot v w₁)
  · have hclean : Tx.Clean (invoke auth c) := clean_invoke fun id relayer proof heq => hc ⟨id, relayer, proof, heq⟩
    obtain ⟨v, hok⟩ | hsame := settle_cases hclean w
    · exact absurd hok (hnot v _)
    · exact hsame

theorem Accepted.run (h : Accepted w (.call auth c)) :
    invoke auth c w = (.ok (), next w (.call auth c)) := by
  rcases hx : invoke auth c w with ⟨r, w₁⟩
  rw [Accepted, hx] at h
  cases h
  have hnext : next w (.call auth c) = w₁ := by
    show Tx.settle (invoke auth c) w = w₁
    rw [Tx.settle, hx]
  rw [hnext]

theorem step_effect (hproven : Proven w ev) (hs : Step w ev w') : Effect w ev w' := by
  obtain ⟨-, rfl⟩ := hs
  by_cases haccepted : Accepted w ev
  · cases ev with
    | call => exact invoke_effect haccepted.run
    | govern => cases haccepted
    | advance => cases haccepted
  · have hquiet : ∀ w', w'.store.messages = w.store.messages →
        w'.store.nextMessageId = w.store.nextMessageId →
        w'.store.expectedNonce = w.store.expectedNonce → Effect w ev w' := fun _ =>
      .quiet (sentId_rejected haccepted) (delivery_rejected haccepted) (callbackId_rejected haccepted)
    cases ev with
    | call =>
      rw [next_of_rejected hproven haccepted]
      exact hquiet w rfl rfl rfl
    | govern => exact hquiet _ rfl rfl rfl
    | advance => exact hquiet _ rfl rfl rfl

end Steps

/-! ## The invariant -/

structure Inv (hist : List (World × Event)) (w : World) : Prop where
  keyed : ∀ id msg, w.store.messages.lookup id = some msg → msg.id = id ∧ id < w.store.nextMessageId
  sent : ∀ id ∈ hist.filterMap sentId, id < w.store.nextMessageId
  sentOnce : (hist.filterMap sentId).Nodup
  nonces : ∀ chain, (hist.filterMap (deliveredNonce chain)).reverse = List.range (expectedNonce w.store chain)
  delivered : ∀ id ∈ hist.filterMap deliveredId, id < w.store.nextMessageId ∧
    ∀ msg, w.store.messages.lookup id = some msg → msg.status = .delivered
  once : (hist.filterMap deliveredId).Nodup
  calledBack : ∀ id ∈ hist.filterMap callbackId, id < w.store.nextMessageId ∧ w.store.messages.lookup id = none
  callbackOnce : (hist.filterMap callbackId).Nodup

section Invariant

variable {hist : List (World × Event)} {w w' : World} {ev : Event}

theorem Inv.deployed (ledger : Ledger) : Inv [] (.deployed ledger) where
  keyed id msg h := by cases h
  sent id h := by cases h
  sentOnce := nodup_nil
  nonces _ := rfl
  delivered id h := by cases h
  once := nodup_nil
  calledBack id h := by cases h
  callbackOnce := nodup_nil

theorem deliveredId_none (h : delivery (w, ev) = none) : deliveredId (w, ev) = none := by
  rw [deliveredId, h, Option.map_none]

theorem deliveredNonce_none (chain : ChainId) (h : delivery (w, ev) = none) :
    deliveredNonce chain (w, ev) = none := by
  rw [deliveredNonce, h]

/-- The history grows by an event that is in none of the lists, and the messages change so that what the lists
say of them stays true. -/
theorem Inv.kept (h : Inv hist w) (hsent : sentId (w, ev) = none) (hdelivery : delivery (w, ev) = none)
    (hcallback : callbackId (w, ev) = none) (hnext : w'.store.nextMessageId = w.store.nextMessageId)
    (hnonce : w'.store.expectedNonce = w.store.expectedNonce)
    (hkeyed : ∀ id msg, w'.store.messages.lookup id = some msg → msg.id = id ∧ id < w.store.nextMessageId)
    (hdelivered : ∀ id, (∀ msg, w.store.messages.lookup id = some msg → msg.status = .delivered) →
      w'.store.messages.lookup id = w.store.messages.lookup id) :
    Inv ((w, ev) :: hist) w' where
  keyed := by rw [hnext]; exact hkeyed
  sent := by rw [filterMap_cons_none hsent, hnext]; exact h.sent
  sentOnce := by rw [filterMap_cons_none hsent]; exact h.sentOnce
  nonces chain := by
    rw [filterMap_cons_none (deliveredNonce_none chain hdelivery), expectedNonce, hnonce]
    exact h.nonces chain
  delivered := by
    rw [filterMap_cons_none (deliveredId_none hdelivery), hnext]
    intro id hid
    obtain ⟨hlt, hstatus⟩ := h.delivered id hid
    rw [hdelivered id hstatus]
    exact ⟨hlt, hstatus⟩
  once := by rw [filterMap_cons_none (deliveredId_none hdelivery)]; exact h.once
  calledBack := by
    rw [filterMap_cons_none hcallback, hnext]
    intro id hid
    obtain ⟨hlt, hnone⟩ := h.calledBack id hid
    rw [hdelivered id fun msg hmsg => (by rw [hnone] at hmsg; cases hmsg)]
    exact ⟨hlt, hnone⟩
  callbackOnce := by rw [filterMap_cons_none hcallback]; exact h.callbackOnce

theorem Inv.sent_step (h : Inv hist w) {msg : CrossChainMessage}
    (hsent : sentId (w, ev) = some w.store.nextMessageId) (hdelivery : delivery (w, ev) = none)
    (hcallback : callbackId (w, ev) = none) (hid : msg.id = w.store.nextMessageId)
    (hmessages : w'.store.messages = w.store.messages.insert w.store.nextMessageId msg)
    (hnext : w'.store.nextMessageId = w.store.nextMessageId + 1)
    (hnonce : w'.store.expectedNonce = w.store.expectedNonce) : Inv ((w, ev) :: hist) w' where
  keyed id msg' hmsg' := by
    rw [hmessages, lookup_insert_eq] at hmsg'
    rw [hnext]
    split at hmsg'
    · rename_i heq
      cases hmsg'
      exact ⟨hid.trans heq.symm, by omega⟩
    · obtain ⟨hkey, hlt⟩ := h.keyed id msg' hmsg'
      exact ⟨hkey, by omega⟩
  sent := by
    rw [filterMap_cons_some hsent, hnext]
    intro id hid'
    rcases List.mem_cons.mp hid' with rfl | hid'
    · exact Nat.lt_succ_self _
    · have := h.sent id hid'
      omega
  sentOnce := by
    rw [filterMap_cons_some hsent]
    exact List.nodup_cons.mpr ⟨fun hmem => Nat.lt_irrefl _ (h.sent _ hmem), h.sentOnce⟩
  nonces chain := by
    rw [filterMap_cons_none (deliveredNonce_none chain hdelivery), expectedNonce, hnonce]
    exact h.nonces chain
  delivered := by
    rw [filterMap_cons_none (deliveredId_none hdelivery), hnext, hmessages]
    intro id hid'
    obtain ⟨hlt, hstatus⟩ := h.delivered id hid'
    rw [lookup_insert_eq, if_neg (Nat.ne_of_lt hlt)]
    exact ⟨by omega, hstatus⟩
  once := by rw [filterMap_cons_none (deliveredId_none hdelivery)]; exact h.once
  calledBack := by
    rw [filterMap_cons_none hcallback, hnext, hmessages]
    intro id hid'
    obtain ⟨hlt, hnone⟩ := h.calledBack id hid'
    rw [lookup_insert_eq, if_neg (Nat.ne_of_lt hlt)]
    exact ⟨by omega, hnone⟩
  callbackOnce := by rw [filterMap_cons_none hcallback]; exact h.callbackOnce

/-- The messages after a delivery. -/
theorem lookup_delivered {id id' : Nat} {msg : CrossChainMessage} (hid : msg.id = id) :
    (w.delivered id msg).store.messages.lookup id' =
      if id' = id then
        if msg.callbackRequired = false then none
        else some { msg with status := .delivered, deliveredAt := some w.ledger.timestamp }
      else w.store.messages.lookup id' := by
  unfold World.delivered
  dsimp only
  rw [hid]
  by_cases hcallback : msg.callbackRequired = false
  · rw [if_pos hcallback, if_pos hcallback, lookup_erase_eq, lookup_insert_eq]
    by_cases heq : id' = id
    · rw [if_pos heq, if_pos heq]
    · rw [if_neg heq, if_neg heq, if_neg heq]
  · rw [if_neg hcallback, if_neg hcallback, lookup_insert_eq]

theorem Inv.delivered_step (h : Inv hist w) {id : Nat} {msg : CrossChainMessage}
    (hsent : sentId (w, ev) = none) (hdelivery : delivery (w, ev) = some (id, msg))
    (hcallback : callbackId (w, ev) = none) (hmsg : w.store.messages.lookup id = some msg)
    (hstatus : msg.status = .relayed) (hnonce : msg.nonce = expectedNonce w.store msg.targetChain) :
    Inv ((w, ev) :: hist) (w.delivered id msg) := by
  obtain ⟨hid, hlt⟩ := h.keyed id msg hmsg
  have hdelivered : deliveredId (w, ev) = some id := by rw [deliveredId, hdelivery, Option.map_some]
  -- the message was not delivered before, since it has another status
  have hnew : id ∉ hist.filterMap deliveredId := by
    intro hmem
    rw [(h.delivered id hmem).2 msg hmsg] at hstatus
    cases hstatus
  refine ⟨fun id' msg' hmsg' => ?_, ?_, ?_, fun chain => ?_, ?_, ?_, ?_, ?_⟩
  · rw [lookup_delivered hid] at hmsg'
    split at hmsg'
    · rename_i heq
      split at hmsg'
      · cases hmsg'
      · cases hmsg'
        exact ⟨hid.trans heq.symm, by rw [heq]; exact hlt⟩
    · exact h.keyed id' msg' hmsg'
  · rw [filterMap_cons_none hsent]
    exact h.sent
  · rw [filterMap_cons_none hsent]
    exact h.sentOnce
  · have hexpected : expectedNonce (w.delivered id msg).store chain =
        if chain = msg.targetChain then msg.nonce + 1 else expectedNonce w.store chain := by
      unfold expectedNonce World.delivered
      rw [lookup_insert_eq]
      by_cases hchain : chain = msg.targetChain
      · rw [if_pos (by rw [hchain]), if_pos hchain]
        rfl
      · rw [if_neg fun hcode => hchain (ChainId.code_inj hcode), if_neg hchain]
    have hn : deliveredNonce chain (w, ev) = if msg.targetChain = chain then some msg.nonce else none := by
      rw [deliveredNonce, hdelivery]
    rw [hexpected]
    by_cases hchain : chain = msg.targetChain
    · subst hchain
      rw [if_pos rfl] at hn ⊢
      rw [filterMap_cons_some hn, reverse_cons, h.nonces, ← hnonce, range_succ]
    · rw [if_neg (Ne.symm hchain)] at hn
      rw [if_neg hchain, filterMap_cons_none hn]
      exact h.nonces chain
  · rw [filterMap_cons_some hdelivered]
    intro id' hid'
    rcases List.mem_cons.mp hid' with rfl | hid'
    · refine ⟨hlt, fun msg' hmsg' => ?_⟩
      rw [lookup_delivered hid, if_pos rfl] at hmsg'
      split at hmsg'
      · cases hmsg'
      · cases hmsg'
        rfl
    · have hne : id' ≠ id := fun heq => hnew (heq ▸ hid')
      rw [lookup_delivered hid, if_neg hne]
      exact h.delivered id' hid'
  · rw [filterMap_cons_some hdelivered]
    exact List.nodup_cons.mpr ⟨hnew, h.once⟩
  · rw [filterMap_cons_none hcallback]
    intro id' hid'
    obtain ⟨hlt', hnone⟩ := h.calledBack id' hid'
    have hne : id' ≠ id := by
      rintro rfl
      rw [hmsg] at hnone
      cases hnone
    rw [lookup_delivered hid, if_neg hne]
    exact ⟨hlt', hnone⟩
  · rw [filterMap_cons_none hcallback]
    exact h.callbackOnce

theorem Inv.calledBack_step (h : Inv hist w) {id : Nat} {msg : CrossChainMessage}
    (hsent : sentId (w, ev) = none) (hdelivery : delivery (w, ev) = none)
    (hcallback : callbackId (w, ev) = some id) (hmsg : w.store.messages.lookup id = some msg) :
    Inv ((w, ev) :: hist) { w with store.messages :=
      (w.store.messages.insert msg.id { msg with status := .callbackReceived }).erase id } := by
  obtain ⟨hid, hlt⟩ := h.keyed id msg hmsg
  -- the message is removed, so no second callback finds it
  have hlookup : ∀ id', ((w.store.messages.insert msg.id
      { msg with status := .callbackReceived }).erase id).lookup id' =
      if id' = id then none else w.store.messages.lookup id' := by
    intro id'
    rw [lookup_erase_eq, lookup_insert_eq, hid]
    by_cases heq : id' = id
    · rw [if_pos heq, if_pos heq]
    · rw [if_neg heq, if_neg heq, if_neg heq]
  refine ⟨fun id' msg' hmsg' => ?_, ?_, ?_, fun chain => ?_, ?_, ?_, ?_, ?_⟩
  · rw [hlookup] at hmsg'
    split at hmsg'
    · cases hmsg'
    · exact h.keyed id' msg' hmsg'
  · rw [filterMap_cons_none hsent]
    exact h.sent
  · rw [filterMap_cons_none hsent]
    exact h.sentOnce
  · rw [filterMap_cons_none (deliveredNonce_none chain hdelivery)]
    exact h.nonces chain
  · rw [filterMap_cons_none (deliveredId_none hdelivery)]
    intro id' hid'
    refine ⟨(h.delivered id' hid').1, fun msg' hmsg' => ?_⟩
    rw [hlookup] at hmsg'
    split at hmsg'
    · cases hmsg'
    · exact (h.delivered id' hid').2 msg' hmsg'
  · rw [filterMap_cons_none (deliveredId_none hdelivery)]
    exact h.once
  · rw [filterMap_cons_some hcallback]
    intro id' hid'
    rw [hlookup]
    rcases List.mem_cons.mp hid' with rfl | hid'
    · exact ⟨hlt, if_pos rfl⟩
    · obtain ⟨hlt', hnone⟩ := h.calledBack id' hid'
      refine ⟨hlt', ?_⟩
      rw [hnone]
      exact ite_self _
  · rw [filterMap_cons_some hcallback]
    refine List.nodup_cons.mpr ⟨fun hmem => ?_, h.callbackOnce⟩
    rw [(h.calledBack id hmem).2] at hmsg
    cases hmsg

theorem Inv.step (h : Inv hist w) (hproven : Proven w ev) (hs : Step w ev w') : Inv ((w, ev) :: hist) w' := by
  cases step_effect hproven hs with
  | quiet hsent hdelivery hcallback hmessages hnext hnonce =>
    refine h.kept hsent hdelivery hcallback hnext hnonce ?_ fun id _ => by rw [hmessages]
    rw [hmessages]
    exact h.keyed
  | sent hsent hdelivery hcallback hid hmessages hnext hnonce =>
    exact h.sent_step hsent hdelivery hcallback hid hmessages hnext hnonce
  | @restated id msg status hsent hdelivery hcallback hmsg hopen hw' =>
    obtain ⟨hid, hlt⟩ := h.keyed id msg hmsg
    subst hw'
    refine h.kept hsent hdelivery hcallback rfl rfl (fun id' msg' hmsg' => ?_) fun id' hdelivered => ?_
    · rw [World.restated, lookup_insert_eq, hid] at hmsg'
      split at hmsg'
      · rename_i heq
        cases hmsg'
        exact ⟨heq.symm, by rw [heq]; exact hlt⟩
      · exact h.keyed id' msg' hmsg'
    · have hne : id' ≠ id := by
        rintro rfl
        exact hopen (hdelivered msg hmsg)
      rw [World.restated, lookup_insert_eq, hid, if_neg hne]
  | delivered hsent hdelivery hcallback hmsg hstatus hnonce hw' =>
    rw [hw']
    exact h.delivered_step hsent hdelivery hcallback hmsg hstatus hnonce
  | calledBack hsent hdelivery hcallback hmsg hw' =>
    rw [hw']
    exact h.calledBack_step hsent hdelivery hcallback hmsg

end Invariant

/-- In every run in which no confirmation that passes the other checks has an empty proof, messages are
delivered in order and once, called back once, and a confirmation that fails changes nothing. -/
theorem deliveredInOrder_of_proven {ledger : Ledger} {hist : List (World × Event)} {w : World}
    (h : Trace (fun a ev b => Proven a ev ∧ Step a ev b) (.deployed ledger) hist w) :
    DeliveredInOrder hist := by
  have hinv := h.invariant (Inv.deployed ledger) fun _ _ _ _ hi hs => hi.step hs.1 hs.2
  refine ⟨hinv.sentOnce, fun chain => ?_, hinv.once, hinv.callbackOnce, ?_⟩
  · have hlength := congrArg List.length (hinv.nonces chain)
    rw [length_reverse, length_range] at hlength
    rw [hlength]
    exact hinv.nonces chain
  · rintro ⟨a, ev⟩ he auth id relayer proof hev hrejected
    obtain ⟨b, hproven, -⟩ := h.mem_step _ he
    dsimp only at hev
    subst hev
    exact next_of_rejected hproven hrejected

namespace Sample

def sender : Address := ⟨1⟩
def validator : Address := ⟨2⟩

def call (c : Call) : Event := .call (fun _ => true) c

def send (callback : Bool) : Event := call (.sendCrossChainMessage sender .ethereum [] [1, 2] 100 callback)
def relay (id : Nat) : Event := call (.relayMessageToTargetChain id validator)
def confirm (id : Nat) (proof : Bytes) : Event := call (.confirmMessageDelivery id validator proof)

/-- The run of `evs` after a bridge with one validator was set up. -/
def started (evs : List Event) : List Event :=
  .govern (AList.singleton 1 [validator]) :: call (.registerBridgeForChain .ethereum 1) :: evs

def history (evs : List Event) : List (World × Event) :=
  (Reaches.visited next (.deployed ⟨0, 0⟩) (started evs)).reverse

/-- Two messages are confirmed in order, after a try out of order and a failure, and the second is called
back. -/
def inOrder : List Event :=
  [send false, send true, relay 1, relay 2, confirm 2 [255], call (.markMessageFailed 1),
    call (.retryFailedMessage 1), relay 1, confirm 1 [255], confirm 2 [255],
    call (.receiveMessageCallback 2 validator [255])]

/-- The second one cannot overtake the first. -/
theorem messages_are_confirmed_in_order :
    DeliveredInOrder (history inOrder) ∧ (history inOrder).filterMap (deliveredNonce .ethereum) = [1, 0] := by
  have hrun : Reaches.Along next (fun w ev => Proven w ev ∧ Allowed w ev) (.deployed ⟨0, 0⟩)
      (started inOrder) := by decide +kernel
  have htrace : Trace (fun a ev b => Proven a ev ∧ Step a ev b) (.deployed ⟨0, 0⟩) (history inOrder)
      ((started inOrder).foldl next (.deployed ⟨0, 0⟩)) :=
    (Trace.of_along hrun).mono fun _ _ _ h => ⟨h.1.1, h.1.2, h.2⟩
  exact ⟨deliveredInOrder_of_proven htrace, by decide +kernel⟩

/-- The first message is confirmed with an empty proof, and again with a proof; then the second one is
confirmed. -/
def emptyProof : List Event :=
  [send false, send false, relay 1, relay 2, confirm 1 [], confirm 1 [255], confirm 2 [255]]

/-- The confirmation that failed has counted the nonce up: the first message cannot be confirmed any more, and
the first nonce that is delivered is `1`. -/
theorem empty_proof_skips_a_message :
    ¬ ∀ ledger hist w, Trace Step (.deployed ledger) hist w → DeliveredInOrder hist := by
  intro h
  have hrun : Reaches.Along next Allowed (.deployed ⟨0, 0⟩) (started emptyProof) := by decide +kernel
  have hnonces := (h _ _ _ (Trace.of_along hrun)).nonces .ethereum
  have hskipped : (history emptyProof).filterMap (deliveredNonce .ethereum) = [1] := by decide +kernel
  rw [history] at hskipped
  rw [hskipped] at hnonces
  cases hnonces

end Sample

end CallStake.Messaging
