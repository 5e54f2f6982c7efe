import PurcFetcher.Core.Entries
import PurcFetcher.Core.Machine
import Mathlib.Algebra.Ring.Nat

/-!
# Handlers of asynchronous replies

`sendWithAsyncReply` puts a handler into a map that all connections share, under the address
of the connection and a number.  The dispatch of a reply takes the handler out of the map and
calls it, with the arguments of the reply if they decode.  The handlers that are left when a
connection closes or is destroyed are called with the value for a cancelled reply.

A connection is known here by its place in the order of creation, since the address of one
that was destroyed may be used again.  A reply is a message for `AsyncReply` that is neither
synchronous nor marked for the mode for tests.  Messages that have arrived are dispatched in
any order, and the counter of the numbers does not reach its last value.
-/

namespace PurcFetcher.Ipc.AsyncReplies

open Machine List

structure Connection (Address : Type) where
  address : Address
  isValid : Bool
  /-- The task of `connectionDidClose` has still to clear the handlers. -/
  isClosing : Bool
  isAlive : Bool
  deriving DecidableEq

/-- The handler of a call of `sendWithAsyncReply`, with the number of replies that were
dispatched before it. -/
structure Handler where
  identifier : ℕ
  connection : ℕ
  repliesBefore : ℕ
  deriving DecidableEq

structure Reply (Args : Type) where
  /-- `none` if the number does not decode. -/
  listenerID : Option ℕ
  /-- `none` if one of the arguments does not decode. -/
  arguments : Option Args
  deriving DecidableEq

/-- A call of a handler, with the connection that called it and with `none` for
`cancelReply`. -/
structure Invocation (Args : Type) where
  handler : Handler
  connection : ℕ
  result : Option Args
  deriving DecidableEq

structure State (Address Args : Type) where
  connections : List (Connection Address)
  /-- The counter of `nextAsyncReplyHandlerID`. -/
  identifier : ℕ
  /-- Numbers of calls that have not added their handler yet. -/
  reserved : List ℕ
  asyncReplyHandlerMap : List (Address × Handler)
  incomingMessages : List (ℕ × Reply Args)
  arrived : List (ℕ × Reply Args)
  /-- The replies that were dispatched on a valid connection. -/
  dispatched : List (ℕ × Reply Args)
  registered : List Handler
  /-- The handlers that had been added when the close of their connection was handled. -/
  closed : List Handler
  invoked : List (Invocation Args)
  deriving DecidableEq

inductive Action (Address Args : Type)
  | create (address : Address)
  | nextAsyncReplyHandlerID
  | addAsyncReplyHandler (connection identifier : ℕ)
  | arrive (connection : ℕ) (reply : Reply Args)
  | dispatchMessage (index : ℕ)
  | invalidate (connection : ℕ)
  /-- The task of `connectionDidClose`, up to the call of `didClose`. -/
  | didClose (connection : ℕ)
  /-- The rest of that task. -/
  | clear (connection : ℕ)
  | destroy (connection : ℕ)
  deriving DecidableEq

variable {Address Args : Type}

def State.start (Address Args : Type) : State Address Args where
  connections := []
  identifier := 0
  reserved := []
  asyncReplyHandlerMap := []
  incomingMessages := []
  arrived := []
  dispatched := []
  registered := []
  closed := []
  invoked := []

/-! ## Steps -/

def State.live (state : State Address Args) (connection : ℕ) : Option (Connection Address) :=
  state.connections[connection]?.filter (·.isAlive)

def State.modify (state : State Address Args) (connection : ℕ)
    (change : Connection Address → Connection Address) : State Address Args :=
  { state with connections := state.connections.modify connection change }

def State.create (state : State Address Args) (address : Address) : State Address Args :=
  { state with
    connections := state.connections ++
      [{ address, isValid := true, isClosing := false, isAlive := true }] }

def Connection.invalidate (connection : Connection Address) : Connection Address :=
  { connection with isValid := false }

def Connection.close (connection : Connection Address) : Connection Address :=
  { connection with isValid := false, isClosing := true }

def Connection.cleared (connection : Connection Address) : Connection Address :=
  { connection with isClosing := false }

def Connection.destroy (connection : Connection Address) : Connection Address :=
  { connection with isAlive := false }

/-- `HashMap::isValidKey` of a 64-bit number. -/
def isValidKey (identifier : ℕ) : Bool :=
  identifier != 0 && identifier != 2 ^ 64 - 1

variable [DecidableEq Address]

def isEntryFor (address : Address) (identifier : ℕ) (entry : Address × Handler) : Bool :=
  entry.1 == address && entry.2.identifier == identifier

/-- `takeAsyncReplyHandler`, with what is left of the map. -/
def takeAsyncReplyHandler (map : List (Address × Handler)) (address : Address)
    (identifier : ℕ) : Option (Handler × List (Address × Handler)) :=
  if isValidKey identifier then
    (map.find? (isEntryFor address identifier)).map fun entry =>
      (entry.2, map.eraseP (isEntryFor address identifier))
  else none

def clearAsyncReplyHandlers (state : State Address Args) (connection : ℕ) (address : Address) :
    State Address Args :=
  { state with
    asyncReplyHandlerMap := state.asyncReplyHandlerMap.filter (·.1 ≠ address)
    invoked := state.invoked ++ (state.asyncReplyHandlerMap.filter (·.1 = address)).map fun entry =>
        { handler := entry.2, connection, result := none } }

/-- `dispatchMessage` of a reply, on a valid connection. -/
def dispatchReply (state : State Address Args) (connection : ℕ) (address : Address)
    (reply : Reply Args) : State Address Args :=
  let state := { state with dispatched := state.dispatched ++ [(connection, reply)] }
  match reply.listenerID with
  | none => state
  | some identifier =>
    match takeAsyncReplyHandler state.asyncReplyHandlerMap address identifier with
    | none => state
    | some (handler, rest) =>
      { state with
        asyncReplyHandlerMap := rest
        invoked := state.invoked ++ [{ handler, connection, result := reply.arguments }] }

def step (state : State Address Args) : Action Address Args → Option (State Address Args)
  | .create address =>
    if ∀ connection ∈ state.connections, connection.isAlive = true → connection.address ≠ address
    then some (state.create address)
    else none
  | .nextAsyncReplyHandlerID =>
    if state.identifier + 2 < 2 ^ 64 then
      some
        { state with
          identifier := state.identifier + 1, reserved := (state.identifier + 1) :: state.reserved }
    else none
  | .addAsyncReplyHandler connection identifier =>
    (state.live connection).bind fun owner =>
      if identifier ∈ state.reserved then
        let handler : Handler :=
          { identifier, connection, repliesBefore := state.dispatched.length }
        some
          { state with
            reserved := state.reserved.erase identifier
            asyncReplyHandlerMap := state.asyncReplyHandlerMap ++ [(owner.address, handler)]
            registered := state.registered ++ [handler] }
      else none
  | .arrive connection reply =>
    (state.live connection).map fun _ =>
      { state with
        incomingMessages := state.incomingMessages ++ [(connection, reply)]
        arrived := state.arrived ++ [(connection, reply)] }
  | .dispatchMessage index =>
    state.incomingMessages[index]?.bind fun (connection, reply) =>
      (state.live connection).map fun receiver =>
        let state := { state with incomingMessages := state.incomingMessages.eraseIdx index }
        if receiver.isValid then dispatchReply state connection receiver.address reply else state
  | .invalidate connection =>
    (state.live connection).map fun _ => state.modify connection .invalidate
  | .didClose connection =>
    (state.live connection).map fun owner =>
      if owner.isValid then state.modify connection .close else state
  | .clear connection =>
    (state.live connection).bind fun owner =>
      if owner.isClosing then
        some
          { (clearAsyncReplyHandlers state connection owner.address).modify connection .cleared with
            closed := state.closed ++ state.registered.filter (·.connection = connection) }
      else none
  | .destroy connection =>
    (state.live connection).bind fun owner =>
      if owner.isClosing then none
      else
        some
          ((clearAsyncReplyHandlers (state.modify connection .invalidate) connection
            owner.address).modify connection .destroy)

/-! ## What the handlers are called with -/

section Statement

omit [DecidableEq Address]

/-- The reply was sent on the connection of the handler and carries its number. -/
def Handler.isAnsweredBy (handler : Handler) (entry : ℕ × Reply Args) : Bool :=
  entry.1 == handler.connection && entry.2.listenerID == some handler.identifier

/-- The arguments of the first of the replies for the handler. -/
def Handler.firstAnswer (handler : Handler) (replies : List (ℕ × Reply Args)) :
    Option (Option Args) :=
  (replies.find? handler.isAnsweredBy).map (·.2.arguments)

/-- The first reply that was dispatched for the handler since it was added. -/
def State.firstReply (state : State Address Args) (handler : Handler) : Option (Option Args) :=
  handler.firstAnswer (state.dispatched.drop handler.repliesBefore)

/-- No handler is called twice or by another connection than its own; it is called with the
arguments of the first reply if they decode and is cancelled otherwise; and it has been
called if there was such a reply, if the close of its connection was handled, or if its
connection was destroyed. -/
structure AnsweredOnce (state : State Address Args) : Prop where
  once : (state.invoked.map (·.handler)).Nodup
  own : ∀ invocation ∈ state.invoked, invocation.handler ∈ state.registered ∧
    invocation.connection = invocation.handler.connection
  result : ∀ invocation ∈ state.invoked,
    invocation.result = (state.firstReply invocation.handler).join
  called : ∀ handler ∈ state.registered,
    state.firstReply handler ≠ none ∨ handler ∈ state.closed ∨
        state.live handler.connection = none →
      handler ∈ state.invoked.map (·.handler)

end Statement

/-! ## The invariant -/

section Invariant

omit [DecidableEq Address]

/-- A handler is in the map, under the address of its connection, or has been called. -/
structure Inv (state : State Address Args) : Prop where
  perm : state.registered.Perm
    (state.asyncReplyHandlerMap.map Prod.snd ++ state.invoked.map (·.handler))
  fresh : (state.reserved ++ state.registered.map (·.identifier)).Nodup
  bounded : ∀ identifier ∈ state.reserved ++ state.registered.map (·.identifier),
    0 < identifier ∧ identifier ≤ state.identifier
  counter : state.identifier + 1 < 2 ^ 64
  before : ∀ handler ∈ state.registered, handler.repliesBefore ≤ state.dispatched.length
  created : ∀ handler ∈ state.registered, handler.connection < state.connections.length
  owned : ∀ entry ∈ state.asyncReplyHandlerMap, ∃ connection,
    state.live entry.2.connection = some connection ∧ connection.address = entry.1
  distinct : ∀ left right connection other, state.live left = some connection →
    state.live right = some other → connection.address = other.address → left = right
  closing : ∀ index connection, state.live index = some connection →
    connection.isClosing = true → connection.isValid = false
  waiting : ∀ entry ∈ state.asyncReplyHandlerMap, state.firstReply entry.2 = none
  own : ∀ invocation ∈ state.invoked, invocation.connection = invocation.handler.connection
  result : ∀ invocation ∈ state.invoked,
    invocation.result = (state.firstReply invocation.handler).join
  /-- A connection with a cancelled handler dispatches nothing more. -/
  silent : ∀ invocation ∈ state.invoked, state.firstReply invocation.handler = none →
    ∀ connection, state.live invocation.handler.connection = some connection →
      connection.isValid = false
  closed : ∀ handler ∈ state.closed, handler ∈ state.invoked.map (·.handler)

variable {s : State Address Args}

theorem Inv.mem_of_invoked (hinv : Inv s) {call : Invocation Args}
    (hcall : call ∈ s.invoked) : call.handler ∈ s.registered :=
  hinv.perm.mem_iff.2 (mem_append_right _ (mem_map_of_mem hcall))

theorem Inv.mem_of_entry (hinv : Inv s) {entry : Address × Handler}
    (hentry : entry ∈ s.asyncReplyHandlerMap) : entry.2 ∈ s.registered :=
  hinv.perm.mem_iff.2 (mem_append_left _ (mem_map_of_mem hentry))

theorem Inv.nodup (hinv : Inv s) :
    (s.asyncReplyHandlerMap.map Prod.snd ++ s.invoked.map (·.handler)).Nodup :=
  hinv.perm.nodup_iff.1 ((nodup_append.1 hinv.fresh).2.1.of_map _)

theorem Inv.answeredOnce (hinv : Inv s) : AnsweredOnce s where
  once := (nodup_append.1 hinv.nodup).2.1
  own := fun call hcall => ⟨hinv.mem_of_invoked hcall, hinv.own call hcall⟩
  result := hinv.result
  called := by
    intro handler hhandler hreason
    refine (mem_append.1 (hinv.perm.mem_iff.1 hhandler)).resolve_left fun hpend => ?_
    obtain ⟨entry, hentry, rfl⟩ := mem_map.1 hpend
    rcases hreason with hreply | hclosed | hdead
    · exact hreply (hinv.waiting entry hentry)
    · exact absurd rfl ((nodup_append.1 hinv.nodup).2.2 _ hpend _ (hinv.closed _ hclosed))
    · obtain ⟨connection, hlive, -⟩ := hinv.owned entry hentry
      exact absurd (hdead.symm.trans hlive) nofun

/-! ### Connections -/

theorem live_modify (idx other : ℕ) {change : Connection Address → Connection Address}
    (halive : ∀ connection, (change connection).isAlive = connection.isAlive) :
    (s.modify idx change).live other = (s.live other).map fun connection =>
        if idx = other then change connection else connection := by
  simp only [State.live, State.modify, getElem?_modify]
  cases s.connections[other]? with
  | none => rfl
  | some connection => grind

theorem live_destroy (idx other : ℕ) :
    (s.modify idx .destroy).live other =
      if idx = other then none else s.live other := by
  simp only [State.live, State.modify, getElem?_modify]
  cases s.connections[other]? with
  | none => simp
  | some => by_cases hidx : idx = other <;> simp [hidx, Option.filter, Connection.destroy]

/-- Other connections of which none has more handlers, another address or become valid. -/
theorem Inv.connections (hinv : Inv s) {connections : List (Connection Address)}
    (hlength : s.connections.length = connections.length)
    (hbefore : ∀ {index connection}, { s with connections }.live index = some connection →
      ∃ old, s.live index = some old ∧ connection.address = old.address ∧
        (old.isValid = false → connection.isValid = false) ∧
          (connection.isClosing = true → connection = old ∨ connection.isValid = false))
    (howned : ∀ entry ∈ s.asyncReplyHandlerMap, ∃ connection,
      { s with connections }.live entry.2.connection = some connection ∧
        connection.address = entry.1) : Inv { s with connections } := by
  refine { hinv with
    created := hlength ▸ hinv.created, owned := howned, distinct := ?_, closing := ?_,
    silent := ?_ }
  · intro left right connection other hleft hright hsame
    obtain ⟨oldLeft, hliveLeft, haddressLeft, -⟩ := hbefore hleft
    obtain ⟨oldRight, hliveRight, haddressRight, -⟩ := hbefore hright
    rw [haddressLeft, haddressRight] at hsame
    exact hinv.distinct left right oldLeft oldRight hliveLeft hliveRight hsame
  · intro other connection hlive hclosed
    obtain ⟨old, hold, -, -, hcases⟩ := hbefore hlive
    rcases hcases hclosed with rfl | hinvalid
    · exact hinv.closing other _ hold hclosed
    · exact hinvalid
  · intro call hcall hnone connection hlive
    obtain ⟨old, hold, -, hkept, -⟩ := hbefore hlive
    exact hkept (hinv.silent call hcall hnone old hold)

/-- A change of the flags of a connection that does not make it valid. -/
theorem Inv.modify (hinv : Inv s) (index : ℕ) {change : Connection Address → Connection Address}
    (haddress : ∀ connection, (change connection).address = connection.address)
    (halive : ∀ connection, (change connection).isAlive = connection.isAlive)
    (hvalid : ∀ connection, connection.isValid = false → (change connection).isValid = false)
    (hclosing : ∀ connection, (change connection).isClosing = true →
      (change connection).isValid = false) : Inv (s.modify index change) := by
  refine hinv.connections (length_modify _ _ _).symm (fun {other connection} hlive => ?_)
    fun entry hentry => ?_
  · obtain ⟨old, hold, rfl⟩ :=
      Option.map_eq_some_iff.1 ((live_modify index other halive).symm.trans hlive)
    refine ⟨old, hold, ?_⟩
    split_ifs
    · exact ⟨haddress old, hvalid old, fun hclosed => Or.inr (hclosing old hclosed)⟩
    · exact ⟨rfl, id, fun _ => Or.inl rfl⟩
  · obtain ⟨connection, hlive, hmap⟩ := hinv.owned entry hentry
    refine ⟨_, (live_modify index _ halive).trans (congrArg _ hlive), ?_⟩
    split_ifs
    · exact (haddress connection).trans hmap
    · exact hmap

/-- A connection that has no handlers may go. -/
theorem Inv.destroy (hinv : Inv s) {index : ℕ}
    (hnone : ∀ entry ∈ s.asyncReplyHandlerMap, entry.2.connection ≠ index) :
    Inv (s.modify index .destroy) := by
  refine hinv.connections (length_modify _ _ _).symm (fun {other connection} hlive => ?_)
    fun entry hentry => ?_
  · have hold := (live_destroy index other).symm.trans hlive
    split_ifs at hold
    exact ⟨connection, hold, rfl, id, fun _ => Or.inl rfl⟩
  · obtain ⟨connection, hlive, hmap⟩ := hinv.owned entry hentry
    refine ⟨connection, (live_destroy index _).trans ?_, hmap⟩
    rw [if_neg fun heq => hnone entry hentry heq.symm, hlive]

end Invariant

section Handlers

variable {s : State Address Args}

variable {index : ℕ}

omit [DecidableEq Address] in
theorem Inv.connection_eq (hinv : Inv s) {connection : Connection Address}
    (hlive : s.live index = some connection) {entry : Address × Handler}
    (hentry : entry ∈ s.asyncReplyHandlerMap) :
    entry.1 = connection.address ↔ entry.2.connection = index := by
  obtain ⟨owner, howner, haddress⟩ := hinv.owned entry hentry
  constructor
  · intro hsame
    exact hinv.distinct _ _ owner connection howner hlive (haddress.trans hsame)
  · intro hsame
    rw [hsame, hlive] at howner
    rw [← haddress, Option.some.inj howner]

/-- The handlers of an invalid connection are cancelled. -/
theorem Inv.clear (hinv : Inv s) {connection : Connection Address}
    (hlive : s.live index = some connection) (hinvalid : connection.isValid = false) :
    Inv (clearAsyncReplyHandlers s index connection.address) := by
  have hcancelled :
      ∀ call ∈ (s.asyncReplyHandlerMap.filter (·.1 = connection.address)).map fun entry =>
        ({ handler := entry.2, connection := index, result := none } : Invocation Args),
      call.handler.connection = index ∧ call.connection = index ∧
        call.result = none ∧ s.firstReply call.handler = none := by
    intro call hcall
    obtain ⟨entry, hentry, rfl⟩ := mem_map.1 hcall
    obtain ⟨hmem, haddress⟩ := mem_filter.1 hentry
    exact ⟨(hinv.connection_eq hlive hmem).1 (by simpa using haddress), rfl, rfl,
      hinv.waiting entry hmem⟩
  have hsplit : (s.asyncReplyHandlerMap.filter (·.1 = connection.address) ++
      s.asyncReplyHandlerMap.filter (·.1 ≠ connection.address)).Perm
        s.asyncReplyHandlerMap := by
    simpa using filter_append_perm (·.1 = connection.address) s.asyncReplyHandlerMap
  refine { hinv with
    perm := ?_, owned := ?_, waiting := ?_, own := ?_, result := ?_, silent := ?_, closed := ?_ }
  · refine hinv.perm.trans (((hsplit.map Prod.snd).symm.append_right _).trans ?_)
    rw [map_append, append_assoc]
    refine perm_append_comm.trans ?_
    simp only [clearAsyncReplyHandlers, map_append, map_map, append_assoc]
    rfl
  · exact fun entry hentry => hinv.owned entry (mem_of_mem_filter hentry)
  · exact fun entry hentry => hinv.waiting entry (mem_of_mem_filter hentry)
  · refine forall_mem_append.2 ⟨hinv.own, fun call hnew => ?_⟩
    obtain ⟨howner, hcaller, -, -⟩ := hcancelled call hnew
    exact hcaller.trans howner.symm
  · refine forall_mem_append.2 ⟨hinv.result, fun call hnew => ?_⟩
    obtain ⟨-, -, hresult, hfirst⟩ := hcancelled call hnew
    exact hresult.trans (congrArg Option.join hfirst).symm
  · refine forall_mem_append.2 ⟨hinv.silent, fun call hnew _ owner howner => ?_⟩
    obtain ⟨hindex, -⟩ := hcancelled call hnew
    have howner : s.live call.handler.connection = some owner := howner
    rw [hindex, hlive] at howner
    exact Option.some.inj howner ▸ hinvalid
  · intro handler hclosed
    rw [clearAsyncReplyHandlers, map_append]
    exact mem_append_left _ (hinv.closed handler hclosed)

/-- No handler of the connection is left. -/
theorem Inv.connection_ne (hinv : Inv s) {connection : Connection Address}
    (hlive : s.live index = some connection) {entry : Address × Handler}
    (hentry : entry ∈ (clearAsyncReplyHandlers s index connection.address).asyncReplyHandlerMap) :
    entry.2.connection ≠ index := by
  obtain ⟨hmem, haddress⟩ := mem_filter.1 hentry
  exact mt (hinv.connection_eq hlive hmem).2 (by simpa using haddress)

/-! ### Replies -/

omit [DecidableEq Address] in
theorem firstReply_append {handler : Handler}
    (hbefore : handler.repliesBefore ≤ s.dispatched.length) (entry : ℕ × Reply Args) :
    { s with dispatched := s.dispatched ++ [entry] }.firstReply handler = (s.firstReply handler).or
        (if handler.isAnsweredBy entry then some entry.2.arguments else none) := by
  simp only [State.firstReply, Handler.firstAnswer]
  rw [drop_append_of_le_length hbefore, find?_append]
  cases (s.dispatched.drop handler.repliesBefore).find? handler.isAnsweredBy with
  | some => rfl
  | none => cases hanswered : handler.isAnsweredBy entry <;> simp [find?, hanswered]

section Dispatch

omit [DecidableEq Address]

variable (hinv : Inv s) {index : ℕ} {receiver : Connection Address}
variable (hlive : s.live index = some receiver) (hvalid : receiver.isValid = true)
variable {reply : Reply Args}

include hinv

theorem Inv.firstReply_entry {entry : Address × Handler}
    (hentry : entry ∈ s.asyncReplyHandlerMap)
    (hother : entry.2.isAnsweredBy (index, reply) = false) :
    { s with dispatched := s.dispatched ++ [(index, reply)] }.firstReply entry.2 = none := by
  rw [firstReply_append (hinv.before _ (hinv.mem_of_entry hentry)), hinv.waiting entry hentry,
    hother]
  rfl

theorem Inv.before_append {handler : Handler} (hhandler : handler ∈ s.registered)
    (entry : ℕ × Reply Args) :
    handler.repliesBefore ≤ (s.dispatched ++ [entry]).length := by
  rw [length_append]
  exact Nat.le_add_right_of_le (hinv.before handler hhandler)

include hlive hvalid

theorem Inv.firstReply_invoked {call : Invocation Args}
    (hcall : call ∈ s.invoked) :
    { s with dispatched := s.dispatched ++ [(index, reply)] }.firstReply
        call.handler = s.firstReply call.handler := by
  rw [firstReply_append (hinv.before _ (hinv.mem_of_invoked hcall))]
  cases hfirst : s.firstReply call.handler with
  | some => rfl
  | none =>
    have hsilent := hinv.silent call hcall hfirst
    have hother : call.handler.isAnsweredBy (index, reply) = false := by
      grind [Handler.isAnsweredBy]
    rw [hother]
    rfl

theorem Inv.ignore (hignored : ∀ entry ∈ s.asyncReplyHandlerMap,
      entry.2.isAnsweredBy (index, reply) = false) :
    Inv { s with dispatched := s.dispatched ++ [(index, reply)] } := by
  refine { hinv with before := ?_, waiting := ?_, result := ?_, silent := ?_ }
  · exact fun handler hhandler => hinv.before_append hhandler _
  · exact fun entry hentry => hinv.firstReply_entry hentry (hignored entry hentry)
  · intro call hcall
    rw [hinv.firstReply_invoked hlive hvalid hcall]
    exact hinv.result call hcall
  · intro call hcall
    rw [hinv.firstReply_invoked hlive hvalid hcall]
    exact hinv.silent call hcall

/-- A reply that the handler of an entry waits for. -/
theorem Inv.answer {choose : Address × Handler → Bool} {entry : Address × Handler}
    (hfind : s.asyncReplyHandlerMap.find? choose = some entry)
    (hanswered : entry.2.isAnsweredBy (index, reply) = true) :
    Inv
      { s with
        dispatched := s.dispatched ++ [(index, reply)]
        asyncReplyHandlerMap := s.asyncReplyHandlerMap.eraseP choose
        invoked := s.invoked ++
          [{ handler := entry.2, connection := index, result := reply.arguments }] } := by
  have hentry := mem_of_find?_eq_some hfind
  have herase := Entries.perm_cons_eraseP hfind
  have hfirst : { s with dispatched := s.dispatched ++ [(index, reply)] }.firstReply
      entry.2 = some reply.arguments := by
    rw [firstReply_append (hinv.before _ (hinv.mem_of_entry hentry)), hinv.waiting entry hentry,
      if_pos hanswered]
    rfl
  have hidx : entry.2.connection = index := by
    rw [Handler.isAnsweredBy, Bool.and_eq_true, beq_iff_eq] at hanswered
    exact hanswered.1.symm
  refine { hinv with
    perm := ?_, before := ?_, owned := ?_, waiting := ?_, own := ?_, result := ?_, silent := ?_,
    closed := ?_ }
  · refine hinv.perm.trans (((herase.map Prod.snd).append_right _).trans ?_)
    rw [map_append, ← append_assoc]
    exact (perm_append_singleton _ _).symm
  · exact fun handler hhandler => hinv.before_append hhandler _
  · exact fun other hother => hinv.owned other (mem_of_mem_eraseP hother)
  · intro other hother
    refine hinv.firstReply_entry (mem_of_mem_eraseP hother) ?_
    rw [← Bool.not_eq_true]
    intro hsame
    have hnodup := (herase.map Prod.snd).nodup_iff.1 (nodup_append.1 hinv.nodup).1
    have hequal : other.2 = entry.2 := by
      simp only [Handler.isAnsweredBy, Bool.and_eq_true, beq_iff_eq] at hsame hanswered
      apply inj_on_of_nodup_map (nodup_append.1 hinv.fresh).2.1
        (hinv.mem_of_entry (mem_of_mem_eraseP hother)) (hinv.mem_of_entry hentry)
      exact Option.some.inj (hsame.2.symm.trans hanswered.2)
    exact (nodup_cons.1 hnodup).1 (hequal ▸ mem_map_of_mem hother)
  · exact forall_mem_append.2 ⟨hinv.own, forall_mem_singleton.2 hidx.symm⟩
  · refine forall_mem_append.2 ⟨fun call hold => ?_,
      forall_mem_singleton.2 (congrArg Option.join hfirst).symm⟩
    exact (hinv.result call hold).trans
      (congrArg Option.join (hinv.firstReply_invoked hlive hvalid hold).symm)
  · refine forall_mem_append.2 ⟨fun call hold hnone => ?_, forall_mem_singleton.2 fun hnone => ?_⟩
    · exact hinv.silent call hold ((hinv.firstReply_invoked hlive hvalid hold).symm.trans hnone)
    · exact absurd (hfirst.symm.trans hnone) nofun
  · intro handler hclosed
    rw [map_append]
    exact mem_append_left _ (hinv.closed handler hclosed)

end Dispatch

omit [DecidableEq Address] in
theorem Inv.isValidKey (hinv : Inv s) {handler : Handler}
    (hhandler : handler ∈ s.registered) : isValidKey handler.identifier = true := by
  have hbounds := hinv.bounded handler.identifier (mem_append_right _ (mem_map_of_mem hhandler))
  have hcounter := hinv.counter
  simp only [AsyncReplies.isValidKey, Bool.and_eq_true, bne_iff_ne]
  omega

theorem Inv.dispatchReply (hinv : Inv s) {receiver : Connection Address}
    (hlive : s.live index = some receiver) (hvalid : receiver.isValid = true)
    (reply : Reply Args) : Inv (dispatchReply s index receiver.address reply) := by
  rw [AsyncReplies.dispatchReply]
  cases hlistener : reply.listenerID with
  | none =>
    refine hinv.ignore hlive hvalid fun entry hentry => ?_
    simp [Handler.isAnsweredBy, hlistener]
  | some ident =>
    cases htake : takeAsyncReplyHandler s.asyncReplyHandlerMap receiver.address
        ident with
    | none =>
      simp only [htake]
      refine hinv.ignore hlive hvalid fun entry hentry => ?_
      rw [← Bool.not_eq_true]
      intro hanswered
      simp only [Handler.isAnsweredBy, hlistener, Bool.and_eq_true, beq_iff_eq,
        Option.some.injEq] at hanswered
      obtain ⟨hidx, rfl⟩ := hanswered
      rw [takeAsyncReplyHandler, if_pos (hinv.isValidKey (hinv.mem_of_entry hentry)),
        Option.map_eq_none_iff, find?_eq_none] at htake
      apply htake entry hentry
      simp [isEntryFor, (hinv.connection_eq hlive hentry).2 hidx.symm]
    | some =>
      simp only [htake]
      rw [takeAsyncReplyHandler] at htake
      split_ifs at htake
      obtain ⟨entry, hfind, rfl⟩ := Option.map_eq_some_iff.1 htake
      have hfor := find?_some hfind
      rw [isEntryFor, Bool.and_eq_true, beq_iff_eq, beq_iff_eq] at hfor
      apply hinv.answer hlive hvalid hfind
      have hidx := (hinv.connection_eq hlive (mem_of_find?_eq_some hfind)).1 hfor.1
      simp [Handler.isAnsweredBy, hlistener, hidx, hfor.2]

/-! ### Runs -/

section Create

omit [DecidableEq Address]

theorem live_create_of_lt (address : Address) {idx : ℕ}
    (hidx : idx < s.connections.length) :
    (s.create address).live idx = s.live idx := by
  rw [State.live, State.create, getElem?_append_left hidx]
  rfl

theorem lt_of_live {idx : ℕ} {connection : Connection Address}
    (hlive : s.live idx = some connection) : idx < s.connections.length := by
  obtain ⟨hsome, -⟩ := Option.filter_eq_some_iff.1 hlive
  exact (List.getElem?_eq_some_iff.1 hsome).1

theorem live_create_cases {address : Address} {idx : ℕ} {connection : Connection Address}
    (hlive : (s.create address).live idx = some connection) :
    s.live idx = some connection ∨
      idx = s.connections.length ∧ connection.address = address ∧ connection.isClosing = false := by
  have hidx := lt_of_live hlive
  rw [State.create, length_append, length_singleton] at hidx
  rcases Nat.lt_succ_iff_lt_or_eq.1 hidx with hold | rfl
  · rw [live_create_of_lt address hold] at hlive
    exact Or.inl hlive
  · obtain ⟨hsome, -⟩ := Option.filter_eq_some_iff.1 hlive
    rw [State.create, getElem?_concat_length] at hsome
    obtain rfl := Option.some.inj hsome
    exact Or.inr ⟨rfl, rfl, rfl⟩

/-- A new connection has an address of its own. -/
theorem Inv.create (hinv : Inv s) {address : Address}
    (hnew : ∀ connection ∈ s.connections, connection.isAlive = true →
      connection.address ≠ address) : Inv (s.create address) := by
  have hother :
      ∀ {index connection}, s.live index = some connection → connection.address ≠ address := by
    intro index connection hlive
    obtain ⟨hsome, halive⟩ := Option.filter_eq_some_iff.1 hlive
    exact hnew connection (mem_of_getElem? hsome) halive
  refine { hinv with created := ?_, owned := ?_, distinct := ?_, closing := ?_, silent := ?_ }
  · intro handler hhandler
    rw [State.create, length_append]
    exact Nat.lt_add_right _ (hinv.created handler hhandler)
  · intro entry hentry
    obtain ⟨connection, hlive, hmap⟩ := hinv.owned entry hentry
    exact ⟨connection, (live_create_of_lt address (lt_of_live hlive)).trans hlive, hmap⟩
  · intro left right connection other hleft hright hsame
    rcases live_create_cases hleft with holdLeft | ⟨rfl, haddressLeft, -⟩ <;>
      rcases live_create_cases hright with holdRight | ⟨rfl, haddressRight, -⟩
    · exact hinv.distinct left right connection other holdLeft holdRight hsame
    · exact absurd (hsame.trans haddressRight) (hother holdLeft)
    · exact absurd (hsame.symm.trans haddressLeft) (hother holdRight)
    · rfl
  · intro index connection hlive hclosing
    rcases live_create_cases hlive with hold | ⟨-, -, hopen⟩
    · exact hinv.closing index connection hold hclosing
    · exact absurd (hclosing.symm.trans hopen) nofun
  · intro call hcall hnone connection hlive
    rw [live_create_of_lt address (hinv.created _ (hinv.mem_of_invoked hcall))] at hlive
    exact hinv.silent call hcall hnone connection hlive

end Create

omit [DecidableEq Address] in
theorem Inv.add (hinv : Inv s) {owner : Connection Address}
    (hlive : s.live index = some owner) (handler : Handler)
    (hreserved : handler.identifier ∈ s.reserved) (hconn : handler.connection = index)
    (hbefore : handler.repliesBefore = s.dispatched.length) :
    Inv
      { s with
        reserved := s.reserved.erase handler.identifier
        asyncReplyHandlerMap := s.asyncReplyHandlerMap ++ [(owner.address, handler)]
        registered := s.registered ++ [handler] } := by
  have hnumbers : (s.reserved.erase handler.identifier ++
      (s.registered ++ [handler]).map (·.identifier)).Perm
        (s.reserved ++ s.registered.map (·.identifier)) := by
    rw [map_append, map_singleton, ← append_assoc]
    refine (perm_append_singleton _ _).trans ?_
    exact (perm_cons_erase hreserved).symm.append_right _
  have hfirst : s.firstReply handler = none := by
    rw [State.firstReply, hbefore, drop_length]
    rfl
  refine { hinv with
    perm := ?_, fresh := ?_, bounded := ?_, before := ?_, created := ?_, owned := ?_,
    waiting := ?_ }
  · rw [map_append, append_assoc]
    refine (perm_append_comm.trans (hinv.perm.cons handler)).trans ?_
    exact perm_middle.symm
  · exact hnumbers.nodup_iff.2 hinv.fresh
  · exact fun ident hmem => hinv.bounded ident (hnumbers.mem_iff.1 hmem)
  · rw [forall_mem_append, forall_mem_singleton]
    exact ⟨hinv.before, Nat.le_of_eq hbefore⟩
  · rw [forall_mem_append, forall_mem_singleton]
    exact ⟨hinv.created, hconn ▸ lt_of_live hlive⟩
  · rw [forall_mem_append, forall_mem_singleton]
    exact ⟨hinv.owned, owner, hconn ▸ hlive, rfl⟩
  · rw [forall_mem_append, forall_mem_singleton]
    exact ⟨hinv.waiting, hfirst⟩

section Ends

variable (hinv : Inv s) {owner : Connection Address} (hlive : s.live index = some owner)

include hinv hlive

/-- After the close no handler of the connection is left in the map. -/
theorem Inv.closed_clear (hclosing : owner.isClosing = true) :
    Inv
      { (clearAsyncReplyHandlers s index owner.address).modify index .cleared with
        closed := s.closed ++ s.registered.filter (·.connection = index) } := by
  have hclear : Inv ((clearAsyncReplyHandlers s index owner.address).modify index .cleared) :=
    (hinv.clear hlive (hinv.closing index owner hlive hclosing)).modify index (fun _ => rfl)
      (fun _ => rfl) (fun _ => id) nofun
  refine { hclear with closed := forall_mem_append.2 ⟨hclear.closed, fun handler hnew => ?_⟩ }
  obtain ⟨hhandler, hindex⟩ := mem_filter.1 hnew
  refine (mem_append.1 (hclear.perm.mem_iff.1 hhandler)).resolve_left fun hpend => ?_
  obtain ⟨entry, hentry, rfl⟩ := mem_map.1 hpend
  exact hinv.connection_ne hlive hentry (of_decide_eq_true hindex)

/-- A connection is invalid when its handlers are cleared for its destruction. -/
theorem Inv.clear_destroy :
    Inv ((clearAsyncReplyHandlers (s.modify index .invalidate) index owner.address).modify index
      .destroy) := by
  have hinvalid : Inv (s.modify index .invalidate) :=
    hinv.modify index (fun _ => rfl) (fun _ => rfl) (fun _ _ => rfl) fun _ _ => rfl
  have howner : (s.modify index .invalidate).live index = some owner.invalidate := by
    have halive : ∀ other : Connection Address, other.invalidate.isAlive = other.isAlive :=
      fun _ => rfl
    rw [live_modify index index halive, hlive, Option.map_some, if_pos rfl]
  exact (hinvalid.clear howner rfl).destroy fun entry hentry =>
    hinvalid.connection_ne howner hentry

end Ends

theorem Inv.step (hinv : Inv s) {next : State Address Args} {action : Action Address Args}
    (hstep : step s action = some next) : Inv next := by
  cases action with
  | create =>
    rw [AsyncReplies.step] at hstep
    split_ifs at hstep with hnew
    exact Option.some.inj hstep ▸ hinv.create hnew
  | nextAsyncReplyHandlerID =>
    rw [AsyncReplies.step] at hstep
    split_ifs at hstep with hcounter
    cases hstep
    refine { hinv with fresh := ?_, bounded := ?_, counter := hcounter }
    · rw [cons_append, nodup_cons]
      refine ⟨fun hmem => ?_, hinv.fresh⟩
      exact absurd (hinv.bounded _ hmem).2 (Nat.not_succ_le_self _)
    · rw [cons_append, forall_mem_cons]
      refine ⟨⟨Nat.succ_pos _, Nat.le_refl _⟩, fun ident hmem => ?_⟩
      obtain ⟨hpos, hle⟩ := hinv.bounded ident hmem
      exact ⟨hpos, Nat.le_succ_of_le hle⟩
  | addAsyncReplyHandler connection ident =>
    obtain ⟨owner, hlive, hadded⟩ := Option.bind_eq_some_iff.1 hstep
    split_ifs at hadded with hreserved
    obtain rfl := Option.some.inj hadded
    exact hinv.add hlive ⟨ident, connection, s.dispatched.length⟩ hreserved rfl rfl
  | arrive =>
    obtain ⟨receiver, -, rfl⟩ := Option.map_eq_some_iff.1 hstep
    exact { hinv with }
  | dispatchMessage index =>
    obtain ⟨⟨connection, reply⟩, -, hreceiver⟩ := Option.bind_eq_some_iff.1 hstep
    obtain ⟨receiver, hlive, rfl⟩ := Option.map_eq_some_iff.1 hreceiver
    have hrest : Inv { s with incomingMessages := s.incomingMessages.eraseIdx index } :=
      { hinv with }
    split_ifs with hvalid
    · exact hrest.dispatchReply hlive hvalid reply
    · exact hrest
  | invalidate connection =>
    obtain ⟨owner, -, rfl⟩ := Option.map_eq_some_iff.1 hstep
    exact hinv.modify connection (fun _ => rfl) (fun _ => rfl) (fun _ _ => rfl) fun _ _ => rfl
  | didClose connection =>
    obtain ⟨owner, -, rfl⟩ := Option.map_eq_some_iff.1 hstep
    split_ifs
    · exact hinv.modify connection (fun _ => rfl) (fun _ => rfl) (fun _ _ => rfl) fun _ _ => rfl
    · exact hinv
  | clear connection =>
    obtain ⟨owner, hlive, hcleared⟩ := Option.bind_eq_some_iff.1 hstep
    split_ifs at hcleared with hclosing
    exact Option.some.inj hcleared ▸ hinv.closed_clear hlive hclosing
  | destroy connection =>
    obtain ⟨owner, hlive, hdestroyed⟩ := Option.bind_eq_some_iff.1 hstep
    split_ifs at hdestroyed
    exact Option.some.inj hdestroyed ▸ hinv.clear_destroy hlive

end Handlers

/-- In every run each handler is called at most once, by its own connection, with what the
first reply says that was dispatched for it, and it has been called when the close of its
connection is handled or the connection is destroyed. -/
theorem answeredOnce_of_run {actions : List (Action Address Args)} {final : State Address Args}
    (hrun : run step (State.start Address Args) actions = some final) : AnsweredOnce final :=
  (run_of_step (fun hinv _ hstep => Inv.step hinv hstep)
    (show Inv (State.start Address Args) from ⟨.nil, nodup_nil, nofun,
      Nat.one_lt_two_pow (by decide), nofun, nofun, nofun, nofun, nofun, nofun, nofun, nofun,
      nofun, nofun⟩) (meets_true _ _) hrun).answeredOnce

/-- A handler is called with the arguments of its reply, and not again by a second reply or
by the destruction of the connection. -/
def answeredCall : List (Action ℕ ℕ) :=
  [.create 16, .nextAsyncReplyHandlerID, .addAsyncReplyHandler 0 1, .arrive 0 ⟨some 1, some 5⟩,
    .arrive 0 ⟨some 1, some 6⟩, .dispatchMessage 0, .dispatchMessage 0, .invalidate 0, .destroy 0]

theorem answeredOnce_of_run_answeredCall :
    (after step (State.start ℕ ℕ) answeredCall).invoked = [⟨⟨1, 0, 0⟩, 0, some 5⟩] ∧
      AnsweredOnce (after step (State.start ℕ ℕ) answeredCall) :=
  ⟨by decide +kernel, answeredOnce_of_run (run_eq_after (by decide +kernel))⟩

/-- A reply that has arrived is not dispatched on a connection that is no longer valid. -/
theorem cancelled_with_reply :
    ∃ final, run step (State.start ℕ ℕ) [.create 16, .nextAsyncReplyHandlerID,
        .addAsyncReplyHandler 0 1, .arrive 0 ⟨some 1, some 5⟩, .invalidate 0, .dispatchMessage 0,
        .destroy 0] = some final ∧
      final.invoked = [⟨⟨1, 0, 0⟩, 0, none⟩] ∧
        Handler.firstAnswer ⟨1, 0, 0⟩ final.arrived = some (some 5) :=
  ⟨_, run_eq_after (by decide +kernel), by decide +kernel, by decide +kernel⟩

end PurcFetcher.Ipc.AsyncReplies
