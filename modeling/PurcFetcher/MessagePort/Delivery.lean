import PurcFetcher.MessagePort.Store

/-!
# Delivery of port messages

What a web process can rely on: the batches it takes for a port are the messages posted to the
port, in order, none twice and none left out, and while messages wait for a port that is in a
process, that process has been told.

The history of a port is read off the events.  Each operation changes the side of one port, and
the destruction of a channel only takes away sides that are closed, so that the relation between
the side of a port and its history is kept by every operation.
-/

namespace PurcFetcher.MessagePort

open PurcFetcher.HashMap Machine

variable {Message : Type}

/-! ## The history of a port -/

/-- What happened to a port since its channel exists: the messages posted to it, those taken for
it, whether it was closed, and the processes that were notified since it was entangled or
messages were taken for it, whichever was later. -/
structure History (Message : Type) where
  posted : List Message
  taken : List Message
  closed : Bool
  notified : List ProcessIdentifier
  deriving DecidableEq, Repr

def History.empty : History Message where
  posted := []
  taken := []
  closed := false
  notified := []

def History.add (history : History Message) (port : MessagePortIdentifier)
    (event : Event Message) : History Message :=
  match event with
  | .opened other => if other = port then .empty else history
  | .closed other => if other = port then { history with closed := true } else history
  | .entangled other _ => if other = port then { history with notified := [] } else history
  | .posted other message =>
    if other = port then { history with posted := history.posted ++ [message] } else history
  | .taken other batch =>
    if other = port then { history with taken := history.taken ++ batch, notified := [] }
    else history
  | .notified other process =>
    if other = port then { history with notified := process :: history.notified } else history

/-- The last event is the first one of the list. -/
def historyOf (port : MessagePortIdentifier) (events : List (Event Message)) :
    History Message :=
  events.foldr (fun event history => history.add port event) .empty

theorem historyOf_cons (port : MessagePortIdentifier) (event : Event Message)
    (events : List (Event Message)) :
    historyOf port (event :: events) = (historyOf port events).add port event := rfl

/-! ## The side and the history of a port -/

/-- What is not yet taken is pending unless the port was closed, and a connected process that
the port is entangled with has been told of pending messages. -/
structure PortInv (webProcessConnection : ProcessIdentifier → Bool)
    (side : Option (Side Message)) (history : History Message) : Prop where
  closed : ∀ {held}, side = some held → held.isClosed = true → history.closed = true
  undelivered : history.closed = false →
    history.taken ++ (side.map Side.pendingMessages).getD [] = history.posted
  told : ∀ {held process}, side = some held → held.process = some process →
    webProcessConnection process = true → held.pendingMessages ≠ [] → process ∈ history.notified

structure Inv (webProcessConnection : ProcessIdentifier → Bool) (state : State Message) :
    Prop where
  store : StoreInv state
  port : ∀ port, PortInv webProcessConnection (state.side port) (historyOf port state.events)

section Steps

variable {connection : ProcessIdentifier → Bool} {state : State Message}

variable {history : History Message} {side : Side Message} {chan : Channel Message}
  {port : MessagePortIdentifier} {identity : ℕ}

theorem PortInv.mk_some (hclosed : side.isClosed = true → history.closed = true)
    (hundelivered : history.closed = false → history.taken ++ side.pendingMessages = history.posted)
    (htold : ∀ process, side.process = some process → connection process = true →
      side.pendingMessages ≠ [] → process ∈ history.notified) :
    PortInv connection (some side) history where
  closed hside := by
    cases hside
    exact hclosed
  undelivered := hundelivered
  told hside := by
    cases hside
    exact htold _

theorem PortInv.closed_some (hport : PortInv connection (some side) history)
    (hclosed : side.isClosed = true) : history.closed = true :=
  hport.closed rfl hclosed

section

variable (hinv : Inv connection state)
include hinv

theorem Inv.release (identity : ℕ) : Inv connection (state.release identity) where
  store := hinv.store.release identity
  port port := by
    have hevents : (state.release identity).events = state.events := by grind [release_cases]
    have hport := hinv.port port
    rw [hevents]
    rcases side_release hinv.store identity port with hsame | ⟨hnone, side, hside, hclosed⟩
    · rwa [hsame]
    · rw [hside] at hport
      rw [hnone]
      refine ⟨fun hside => absurd hside nofun, fun hopen => ?_, fun hside => absurd hside nofun⟩
      exact absurd ((hport.closed rfl hclosed).symm.trans hopen) Bool.false_ne_true.symm

/-- An operation on a port changes its side and appends events that concern no other port. -/
theorem Inv.setSide (change : Side Message → Side Message)
    (batches : ℕ) (next : State Message)
    (hexisting : state.existingChannelContainingPort port = some (identity, chan))
    (hkeeps : ∀ side, (change side).port = side.port)
    (hheld : ∀ side, side.Held → (change side).Held)
    (hopen : next.openChannels = state.openChannels)
    (hchannels : next.channels = (state.setSide port identity chan change batches).channels)
    (hnext : next.nextChannel = state.nextChannel)
    (hothers : ∀ other ≠ port, historyOf other next.events = historyOf other state.events)
    (hport : PortInv connection (some (chan.side port))
      (historyOf port state.events) → PortInv connection (some (change (chan.side port)))
          (historyOf port next.events)) : Inv connection next := by
  obtain ⟨hlookup, hchan⟩ := existingChannelContainingPort_eq_some_iff.1 hexisting
  have hstore := hinv.store.setSide hlookup hchan hkeeps hheld batches
  have hside := side_setSide hinv.store hlookup hchan hkeeps batches
  obtain ⟨openChannels, channels, nextChan, handlers, cur, events⟩ := next
  subst hopen hchannels hnext
  refine ⟨⟨hstore.registered, hstore.held, hstore.closedFirst, hstore.closedSecond,
    hstore.below⟩, fun other => ?_⟩
  have hother := hside other
  change PortInv _ ((state.setSide port identity chan change batches).side other) _
  rw [hother]
  by_cases hsame : other = port
  · subst hsame
    have hbefore := hinv.port other
    rw [side_eq hchan hlookup] at hbefore
    rw [if_pos rfl]
    exact hport hbefore
  · rw [if_neg hsame]
    have hbefore := hinv.port other
    rwa [← hothers other hsame] at hbefore

theorem Inv.messagePortDisentangled (port : MessagePortIdentifier) :
    Inv connection (state.messagePortDisentangled port) := by
  rw [State.messagePortDisentangled]
  split
  · exact hinv
  · next identity chan hexisting =>
    refine Inv.release ?_ identity
    refine hinv.setSide .disentangle _ _ hexisting (fun _ => rfl) (fun _ _ _ => Or.inr rfl)
      rfl rfl rfl (fun _ _ => rfl) fun hport => ?_
    exact .mk_some hport.closed_some hport.undelivered nofun

theorem Inv.messagePortClosed (port : MessagePortIdentifier) :
    Inv connection (state.messagePortClosed port) := by
  rw [State.messagePortClosed]
  split
  · exact hinv
  · next identity chan hexisting =>
    refine Inv.release ?_ identity
    refine hinv.setSide .close _ _ hexisting (fun _ => rfl)
      (fun _ _ hopen => absurd hopen Bool.false_ne_true.symm) rfl rfl rfl
      (fun other hne => ?_) fun hport => ?_
    · exact if_neg hne.symm
    · simp only [State.record, historyOf_cons, History.add, if_true]
      exact .mk_some (fun _ => rfl) (fun hopen => absurd hopen Bool.false_ne_true.symm) nofun

end

theorem PortInv.entangle (hport : PortInv connection (some side) history)
    (process : ProcessIdentifier) {notified : List ProcessIdentifier}
    (hnotified : side.pendingMessages ≠ [] → process ∈ notified) :
    PortInv connection (some (side.entangle process)) { history with notified := notified } := by
  refine .mk_some hport.closed_some hport.undelivered fun other hother _ hpend => ?_
  cases hother
  exact hnotified hpend

theorem Channel.hasAny_of_pending (hpend : (chan.side port).pendingMessages ≠ []) :
    chan.hasAnyMessagesPendingOrInFlight = true := by
  rw [Channel.side] at hpend
  rw [Channel.hasAnyMessagesPendingOrInFlight, Bool.or_eq_true, Bool.or_eq_true]
  split at hpend
  · exact Or.inl (Or.inr (by simpa using hpend))
  · exact Or.inr (by simpa using hpend)

theorem Inv.entangle (hinv : Inv connection state) (process : ProcessIdentifier)
    (port : MessagePortIdentifier) :
    Inv connection (state.entangleLocalPortInThisProcessToRemote process port) := by
  rw [State.entangleLocalPortInThisProcessToRemote]
  split
  · exact hinv
  · next identity chan hexisting =>
    dsimp only
    split
    · refine hinv.setSide (.entangle process) _ _ hexisting (fun _ => rfl)
        (fun _ _ _ => Or.inl rfl) rfl rfl rfl (fun other hne => ?_) fun hport => ?_
      · exact (if_neg hne.symm).trans (if_neg hne.symm)
      · simp only [State.record, State.setChannel, historyOf_cons, History.add, if_true]
        exact hport.entangle process fun _ => List.mem_singleton_self process
    · next hnone =>
      refine hinv.setSide (.entangle process) _ _ hexisting (fun _ => rfl)
        (fun _ _ _ => Or.inl rfl) rfl rfl rfl (fun other hne => ?_) fun hport => ?_
      · exact if_neg hne.symm
      · simp only [State.record, State.setChannel, historyOf_cons, History.add, if_true]
        refine hport.entangle process fun hpend => absurd ?_ hnone
        have hside : (chan.modify port (Side.entangle process)).side port =
            (chan.side port).entangle process := Channel.side_modify fun _ => rfl
        refine @Channel.hasAny_of_pending _ _ port ?_
        rw [hside]
        exact hpend

theorem PortInv.post (hport : PortInv connection (some side) history) (msg : Message)
    {notified : List ProcessIdentifier} (hkept : ∀ process ∈ history.notified, process ∈ notified)
    (hfirst : ∀ process, side.pendingMessages = [] → side.process = some process →
      connection process = true → process ∈ notified) :
    PortInv connection (some (side.post msg))
      { history with posted := history.posted ++ [msg], notified := notified } := by
  refine .mk_some hport.closed_some (fun hopen => ?_) fun process hproc hconnected _ => ?_
  · have hbefore := hport.undelivered hopen
    change history.taken ++ side.pendingMessages = history.posted at hbefore
    change history.taken ++ (side.pendingMessages ++ [msg]) = history.posted ++ [msg]
    rw [← List.append_assoc, hbefore]
  · by_cases hpend : side.pendingMessages = []
    · exact hfirst process hpend hproc hconnected
    · exact hkept process (hport.told rfl hproc hconnected hpend)

/-- A port in a process is told when the first message is posted.  Later messages need no
notification, since there is one since the last take. -/
theorem Inv.post (hinv : Inv connection state) (msg : Message)
    (port : MessagePortIdentifier) :
    Inv connection (state.postMessageToRemote connection msg port) := by
  rw [State.postMessageToRemote]
  split
  · exact hinv
  · next identity chan hexisting =>
    have hside : (chan.modify port (Side.post msg)).side port =
        (chan.side port).post msg := Channel.side_modify fun _ => rfl
    -- without a notification there was a message before, no process or no connection
    have hsilent : (∀ process, (chan.side port).pendingMessages = [] →
        (chan.side port).process = some process → connection process = false) →
        Inv connection
          ((state.setChannel identity (chan.modify port (.post msg))).record
            (.posted port msg)) := by
      intro hsilent
      refine hinv.setSide (.post msg) _ _ hexisting (fun _ => rfl) (fun _ hheld => hheld)
        rfl rfl rfl (fun other hne => if_neg hne.symm) fun hport => ?_
      simp only [State.record, State.setChannel, historyOf_cons, History.add, if_true]
      refine hport.post msg (fun _ hmem => hmem) fun process hempty hproc hconnected => ?_
      exact absurd (hconnected.symm.trans (hsilent process hempty hproc)) Bool.false_ne_true.symm
    dsimp only
    rw [Channel.processForPort, hside]
    split
    · split
      · next hproc =>
        refine hsilent fun process _ hsome => ?_
        exact absurd (hsome.symm.trans hproc) (Option.some_ne_none _)
      · next process hproc =>
        split
        · refine hinv.setSide (.post msg) _ _ hexisting (fun _ => rfl)
            (fun _ hheld => hheld) rfl rfl rfl (fun other hne => ?_) fun hport => ?_
          · exact (if_neg hne.symm).trans (if_neg hne.symm)
          · simp only [State.record, State.setChannel, historyOf_cons, History.add, if_true]
            refine hport.post msg (fun _ hmem => List.mem_cons_of_mem _ hmem)
              fun other _ hother _ => ?_
            rw [Option.some.inj (hother.symm.trans hproc)]
            exact List.mem_cons_self
        · next hconn =>
          refine hsilent fun other _ hother => ?_
          rw [Option.some.inj (hother.symm.trans hproc)]
          exact Bool.eq_false_of_not_eq_true hconn
    · grind [Side.isOnlyMessage, Side.post]

theorem PortInv.take (hport : PortInv connection (some side) history) :
    PortInv connection (some side.take)
      { history with taken := history.taken ++ side.pendingMessages, notified := [] } := by
  refine .mk_some hport.closed_some (fun hopen => ?_) fun _ _ _ hpend => absurd rfl hpend
  rw [← hport.undelivered hopen]
  exact List.append_nil _

section

variable (hinv : Inv connection state)
include hinv

theorem Inv.take (process : ProcessIdentifier)
    (port : MessagePortIdentifier) :
    Inv connection (state.takeAllMessagesForPort process port) := by
  have hnothing : (∀ held, state.side port = some held → held.pendingMessages = []) →
      Inv connection ((state.addHandler process none).record (.taken port [])) := by
    intro hempty
    refine ⟨{ hinv.store with }, fun other => ?_⟩
    change PortInv _ (state.side other) ((historyOf other state.events).add other (.taken port []))
    rw [History.add]
    split
    · next hsame =>
      subst hsame
      have hport := hinv.port port
      exact ⟨hport.closed, fun hopen => by rw [← hport.undelivered hopen, List.append_nil],
        fun hside _ _ hpending => absurd (hempty _ hside) hpending⟩
    · exact hinv.port other
  rw [State.takeAllMessagesForPort]
  split
  · grind [State.side]
  · next identity chan hexisting =>
    dsimp only
    split
    · grind [State.side]
    · refine hinv.setSide .take _ _ hexisting (fun _ => rfl) (fun _ hheld => hheld) rfl rfl rfl
        (fun other hne => if_neg hne.symm) fun hport => ?_
      simp only [State.record, State.setChannel, State.addHandler, historyOf_cons, History.add,
        if_true]
      exact hport.take

/-- The number of batches in flight tells nothing about a side. -/
theorem Inv.setBatches (hchan : state.channels.lookup identity = some chan) (batches : ℕ) :
    Inv connection (state.setChannel identity { chan with messageBatchesInFlight := batches }) := by
  have hset : ∀ {key held}, (state.channels.insert identity
      { chan with messageBatchesInFlight := batches }).lookup key = some held →
        ∃ before, state.channels.lookup key = some before ∧ held.first = before.first ∧
          held.second = before.second := by
    intro key held hheld
    rw [lookup_insert_eq_ite] at hheld
    split at hheld
    · next hkey =>
      cases hheld
      exact ⟨chan, hkey ▸ hchan, rfl, rfl⟩
    · exact ⟨held, hheld, rfl, rfl⟩
  have hkept : ∀ {key before}, state.channels.lookup key = some before →
      ∃ held, (state.channels.insert identity
        { chan with messageBatchesInFlight := batches }).lookup key = some held ∧
          held.first = before.first ∧ held.second = before.second := by
    intro key before hbefore
    rw [lookup_insert_eq_ite]
    split
    · grind
    · exact ⟨before, hbefore, rfl, rfl⟩
  refine ⟨⟨fun hopen => ?_, fun hheld => ?_, fun hheld hclosed => ?_, fun hheld hclosed => ?_,
    fun hheld => ?_⟩, fun port => ?_⟩
  · obtain ⟨before, hbefore, hends⟩ := hinv.store.registered hopen
    obtain ⟨held, hheld, hfirst, hsecond⟩ := hkept hbefore
    exact ⟨held, hheld, hfirst ▸ hsecond ▸ hends⟩
  · obtain ⟨before, hbefore, hfirst, hsecond⟩ := hset hheld
    rw [hfirst, hsecond]
    exact hinv.store.held hbefore
  · obtain ⟨before, hbefore, hfirst, -⟩ := hset hheld
    rw [hfirst] at hclosed ⊢
    exact hinv.store.closedFirst hbefore hclosed
  · obtain ⟨before, hbefore, hfirst, hsecond⟩ := hset hheld
    rw [hsecond] at hclosed ⊢
    rw [hfirst]
    exact hinv.store.closedSecond hbefore hclosed
  · obtain ⟨before, hbefore, -⟩ := hset hheld
    exact hinv.store.below hbefore
  · have hport := hinv.port port
    have hside := side_of_kept hinv.store (state.setChannel _ _) rfl hkept port
    rw [hside]
    exact hport

theorem Inv.delivered (process : ProcessIdentifier)
    (batch : ℕ) :
    Inv connection (state.didDeliverMessagePortMessages process batch) := by
  have htaken : ∀ handlers, Inv connection
      { state with messageBatchDeliveryCompletionHandlers := handlers } :=
    fun _ => ⟨{ hinv.store with }, hinv.port⟩
  rw [State.didDeliverMessagePortMessages]
  split
  · exact hinv
  · dsimp only
    split
    · exact htaken _
    · split
      · exact htaken _
      · next hchan =>
        refine Inv.release ?_ _
        exact (htaken (state.messageBatchDeliveryCompletionHandlers.erase
          (process, batch))).setBatches hchan _

end

theorem StoreInv.openPort (hinv : StoreInv state)
    (hchan : state.channels.lookup identity = some chan)
    (hport : port = chan.first.port ∨ port = chan.second.port)
    (hclosed : state.openChannels.lookup port = none) (events : List (Event Message)) :
    StoreInv { state with
      openChannels := state.openChannels.insert port identity, events := events } := by
  have hkept : ∀ {other found}, state.openChannels.lookup other = some found →
      (state.openChannels.insert port identity).lookup other = some found := by
    intro other found hfound
    rw [lookup_insert_eq_ite, if_neg, hfound]
    rintro rfl
    exact absurd (hclosed.symm.trans hfound) nofun
  refine ⟨fun hopen => ?_, hinv.held, fun hheld hend => ?_, fun hheld hend => ?_, hinv.below⟩
  · rw [lookup_insert_eq_ite] at hopen
    split at hopen
    · next hsame =>
      subst hsame
      cases hopen
      exact ⟨chan, hchan, hport⟩
    · exact hinv.registered hopen
  · exact hkept (hinv.closedFirst hheld hend)
  · obtain ⟨hsecond, hdistinct⟩ := hinv.closedSecond hheld hend
    exact ⟨hkept hsecond, hdistinct⟩

variable (hinv : Inv connection state)
include hinv

/-- A new port starts with nothing pending and an empty history. -/
theorem Inv.openPort (hchan : state.channels.lookup identity = some chan)
    (hport : port = chan.first.port ∨ port = chan.second.port)
    (hfresh : (chan.side port).isClosed = false ∧ (chan.side port).pendingMessages = []) :
    Inv connection (state.openPort port identity) := by
  rw [State.openPort]
  split
  · exact hinv
  · next hclosed =>
    have hnone : state.openChannels.lookup port = none := AList.lookup_eq_none.2 hclosed
    refine ⟨hinv.store.openPort hchan hport hnone _, fun other => ?_⟩
    by_cases hsame : other = port
    · subst hsame
      have hside : State.side
          ({ state with
            openChannels := state.openChannels.insert other identity }.record (.opened other))
          other = some (chan.side other) := side_eq hchan (AList.lookup_insert _)
      have hhistory : historyOf other (.opened other :: state.events) = .empty := if_pos rfl
      rw [hside]
      change PortInv _ _ (historyOf other (.opened other :: state.events))
      rw [hhistory]
      refine .mk_some (fun hend => ?_) (fun _ => ?_) fun _ _ _ hpend => ?_
      · exact absurd (hfresh.1.symm.trans hend) Bool.false_ne_true
      · rw [hfresh.2]
        rfl
      · exact absurd hfresh.2 hpend
    · have hbefore := hinv.port other
      have hhistory : historyOf other (.opened port :: state.events) =
          historyOf other state.events := if_neg (Ne.symm hsame)
      have hside : State.side
          ({ state with
            openChannels := state.openChannels.insert port identity }.record (.opened port))
          other = state.side other := side_congr (AList.lookup_insert_ne hsame) rfl
      rw [hside]
      exact hhistory.symm ▸ hbefore

theorem Inv.create (port1 port2 : MessagePortIdentifier) :
    Inv connection (state.createNewMessagePortChannel port1 port2) := by
  have hunused : ∀ {key held}, state.channels.lookup key = some held →
      key ≠ state.nextChannel := fun hheld => (hinv.store.below hheld).ne
  have hkept : ∀ {key held}, state.channels.lookup key = some held →
      (state.channels.insert state.nextChannel (.create port1 port2)).lookup key = some held :=
    fun hheld => (AList.lookup_insert_ne (hunused hheld)).trans hheld
  have hcreated : Inv connection
      { state with
        channels := state.channels.insert state.nextChannel (.create port1 port2)
        nextChannel := state.nextChannel + 1 } := by
    refine ⟨⟨fun hopen => ?_, fun hheld => ?_, fun hheld hclosed => ?_, fun hheld hclosed => ?_,
      fun hheld => ?_⟩, fun port => ?_⟩
    · obtain ⟨held, hheld, hends⟩ := hinv.store.registered hopen
      exact ⟨held, hkept hheld, hends⟩
    · rw [lookup_insert_eq_ite] at hheld
      split at hheld
      · cases hheld
        exact ⟨fun _ => Or.inl rfl, fun _ => Or.inl rfl⟩
      · exact hinv.store.held hheld
    · rw [lookup_insert_eq_ite] at hheld
      split at hheld
      · cases hheld
        cases hclosed
      · exact hinv.store.closedFirst hheld hclosed
    · rw [lookup_insert_eq_ite] at hheld
      split at hheld
      · cases hheld
        cases hclosed
      · exact hinv.store.closedSecond hheld hclosed
    · rw [lookup_insert_eq_ite] at hheld
      split at hheld
      · next hkey => exact hkey ▸ Nat.lt_succ_self _
      · exact Nat.lt_succ_of_lt (hinv.store.below hheld)
    · have hbefore := hinv.port port
      have hside := side_of_kept hinv.store
        { state with
          channels := state.channels.insert state.nextChannel (.create port1 port2)
          nextChannel := state.nextChannel + 1 }
        rfl (fun hheld => ⟨_, hkept hheld, rfl, rfl⟩) port
      rw [hside]
      exact hbefore
  have hfresh : ∀ port, ((Channel.create port1 port2 : Channel Message).side port).isClosed =
      false ∧ ((Channel.create port1 port2 : Channel Message).side port).pendingMessages = [] := by
    intro port
    rw [Channel.side]
    split
    · exact ⟨rfl, rfl⟩
    · exact ⟨rfl, rfl⟩
  have hchan : (state.channels.insert state.nextChannel
      (Channel.create port1 port2 : Channel Message)).lookup state.nextChannel =
        some (.create port1 port2) := AList.lookup_insert _
  have hfirst := hcreated.openPort hchan (Or.inl rfl) (hfresh port1)
  refine hfirst.openPort ?_ (Or.inr rfl) (hfresh port2)
  rw [State.openPort]
  split <;> exact hchan

theorem Inv.step {action : Action Message} {next : State Message}
    (hstep : step connection state action = some next) :
    Inv connection next := by
  obtain ⟨-, hact⟩ := Option.ite_none_right_eq_some.1 hstep
  cases action with
  | create process port1 port2 =>
    cases hact
    exact hinv.create port1 port2
  | entangle process port =>
    cases hact
    exact hinv.entangle process port
  | disentangle process port =>
    cases hact
    exact hinv.messagePortDisentangled port
  | close process port =>
    cases hact
    exact hinv.messagePortClosed port
  | post process msg port =>
    cases hact
    exact hinv.post msg port
  | take process port =>
    cases hact
    exact hinv.take process port
  | delivered process batch =>
    cases hact
    exact hinv.delivered process batch

end Steps

/-- In every run, what was taken for a port that was not closed is a prefix of what was posted
to it, with the rest still pending, and while messages are pending for a port that is entangled
with a connected process, that process was notified since the port was entangled or messages
were taken for it, whichever was later. -/
theorem ports_deliver_and_notify (webProcessConnection : ProcessIdentifier → Bool)
    {actions : List (Action Message)} {state : State Message}
    (hrun : run (step webProcessConnection) .initial actions = some state)
    (port : MessagePortIdentifier) :
    ((historyOf port state.events).closed = false →
      (historyOf port state.events).taken <+: (historyOf port state.events).posted ∧
        (historyOf port state.events).taken ++ state.pendingMessages port =
          (historyOf port state.events).posted) ∧
    (∀ process, state.processForPort port = some process → webProcessConnection process = true →
      state.pendingMessages port ≠ [] → process ∈ (historyOf port state.events).notified) := by
  have hinv : Inv webProcessConnection state :=
    run_of_step (fun hinv _ hstep => hinv.step hstep)
      ⟨storeInv_initial, fun _ => ⟨fun hside => absurd hside nofun, fun _ => rfl,
        fun hside => absurd hside nofun⟩⟩ (meets_true _ _) hrun
  have hport := hinv.port port
  refine ⟨fun hopen => ?_, fun process hprocess hconnected hpending => ?_⟩
  · have hall := hport.undelivered hopen
    exact ⟨⟨_, hall⟩, hall⟩
  · obtain ⟨held, hheld, hentangled⟩ := Option.bind_eq_some_iff.1 hprocess
    rw [State.pendingMessages, hheld] at hpending
    exact hport.told hheld hentangled hconnected hpending

/-- A port of the registry leads to a channel that exists and has the port. -/
theorem registry_is_always_consistent (connection : ProcessIdentifier → Bool)
    (actions : List (Action Message)) : Always (step connection) StoreInv .initial actions := by
  have hinv : Always (step connection) (Inv connection) .initial actions :=
    always_of_step (fun hinv _ => hinv.step)
      ⟨storeInv_initial, fun _ => ⟨nofun, fun _ => rfl, nofun⟩⟩ (meets_true _ _)
  exact hinv.mono fun _ => Inv.store

namespace Sample

def sender : MessagePortIdentifier := { processIdentifier := 1, portIdentifier := 1 }

def receiver : MessagePortIdentifier := { processIdentifier := 1, portIdentifier := 2 }

/-- A port that is moved to process 2 while messages are posted to it. -/
def transfer : List (Action ℕ) :=
  [.create 1 sender receiver, .post 1 10 receiver, .take 1 receiver, .disentangle 1 receiver,
    .post 1 20 receiver, .post 1 30 receiver, .entangle 2 receiver sender]

end Sample

theorem ports_deliver_and_notify_transfer :
    let state := after (step fun _ => true) .initial Sample.transfer
    (historyOf Sample.receiver state.events).taken ++ [20, 30] =
        (historyOf Sample.receiver state.events).posted ∧
      2 ∈ (historyOf Sample.receiver state.events).notified := by
  intro state
  have hrun : run (step fun _ => true) .initial Sample.transfer = some state :=
    run_eq_after (by decide +kernel)
  obtain ⟨hdelivered, htold⟩ := ports_deliver_and_notify (fun _ => true) hrun Sample.receiver
  exact ⟨(hdelivered (by decide +kernel)).2, htold 2 (by decide +kernel) rfl (by decide +kernel)⟩

/-- The ports of a channel belong to the process they name, and no notification is sent to a
process without a connection. -/
theorem unconnected_process_is_not_told :
    let state := after (step fun process => process == 1) .initial
      [Action.create 1 ⟨2, 1⟩ ⟨2, 2⟩, .post 1 10 ⟨2, 1⟩]
    state.processForPort ⟨2, 1⟩ = some 2 ∧ state.pendingMessages ⟨2, 1⟩ = [10] ∧
      2 ∉ (historyOf ⟨2, 1⟩ state.events).notified := by
  decide +kernel

end PurcFetcher.MessagePort
