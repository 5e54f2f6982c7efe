import PurcFetcher.Ipc.SyncMessages

/-!
# Replies to synchronous messages

The pending replies of a connection are its open calls of `sendSyncMessage`, innermost
first, and their identifiers descend.  A reply is stored under its own identifier only,
so the call that returns it is the one that asked for it.
-/

namespace PurcFetcher.Ipc.Sync

open Function Machine List

variable {C : Type} [DecidableEq C]

/-- A call of `sendSyncMessage`, with the reply that it is about to return. -/
def Frame.call : Frame C → Option ((C × ℕ) × Option (Reply C))
  | .sendSyncMessage connection identifier (.returning reply) =>
    some ((connection, identifier), reply)
  | .sendSyncMessage connection identifier _ => some ((connection, identifier), none)
  | _ => none

/-- The open calls of `sendSyncMessage`, innermost first. -/
def calls (stack : List (Frame C)) : List ((C × ℕ) × Option (Reply C)) :=
  stack.filterMap Frame.call

/-- The identifiers of the calls on one connection. -/
def callsOn (connection : C) (calls : List ((C × ℕ) × Option (Reply C))) : List ℕ :=
  calls.filterMap fun call => if call.1.1 = connection then some call.1.2 else none

def pendingIDs (state : State C) (connection : C) : List ℕ :=
  (state.pendingSyncReplies connection).map (·.syncRequestID)

/-- A call of `sendSyncMessage` that is made in `state` and gets to wait for its reply
returns in `after`. -/
def Returns (connection : C) (state after : State C) : Prop :=
  ∃ called actions last,
    step state (.sendSyncMessage connection) = some called ∧
    run step called actions = some last ∧
    Always step (fun during => state.stack.length < during.stack.length) called actions ∧
    step last .advance = some after ∧ after.stack.length = state.stack.length

/-- Each call returns its own reply or none, no reply is returned twice, and a call
leaves the pending replies of the calls around it as they were. -/
structure RepliesMatch (state : State C) : Prop where
  own : ∀ call reply, (call, some reply) ∈ state.returned → reply.destinationID = call.2
  once : (state.returned.filterMap Prod.snd).Nodup
  balanced : ∀ connection after, Returns connection state after →
    state.syncRequestID connection + 1 ∉ pendingIDs after connection ∧
      ∀ other, pendingIDs after other = pendingIDs state other

/-! ## The invariant -/

structure RepliesInv (state : State C) : Prop where
  opened : ∀ connection, pendingIDs state connection = callsOn connection (calls state.stack)
  descending : ∀ connection,
    ((state.syncRequestID connection + 1) :: pendingIDs state connection).Pairwise (· > ·)
  stored : ∀ connection, ∀ entry ∈ state.pendingSyncReplies connection, ∀ reply,
    entry.replyDecoder = some reply →
      (reply.connection, reply.destinationID) = (connection, entry.syncRequestID)
  carried : ∀ call reply, (call, some reply) ∈ calls state.stack →
    (reply.connection, reply.destinationID) = call
  answered : ∀ call reply, (call, some reply) ∈ state.returned →
    (reply.connection, reply.destinationID) = call
  closed : ∀ call ∈ state.returned.map Prod.fst,
    call.2 ≤ state.syncRequestID call.1 ∧ call.2 ∉ pendingIDs state call.1
  distinct : (state.returned.map Prod.fst).Nodup

theorem repliesInv_start : RepliesInv (State.start C) where
  opened := fun _ => rfl
  descending := fun _ => pairwise_singleton _ _
  stored := nofun
  carried := nofun
  answered := nofun
  closed := nofun
  distinct := nodup_nil

section Steps

variable {s next : State C}

theorem RepliesInv.of_calls (hinv : RepliesInv s)
    (hcalls : ∀ connection,
      callsOn connection (calls next.stack) = callsOn connection (calls s.stack))
    (hcarried : ∀ call reply, (call, some reply) ∈ calls next.stack →
      (reply.connection, reply.destinationID) = call)
    (hpend : pendingIDs next = pendingIDs s)
    (hstored : ∀ connection, ∀ entry ∈ next.pendingSyncReplies connection, ∀ reply,
      entry.replyDecoder = some reply →
        (reply.connection, reply.destinationID) = (connection, entry.syncRequestID))
    (hids : next.syncRequestID = s.syncRequestID)
    (hreturned : next.returned = s.returned) : RepliesInv next where
  opened := fun connection => by rw [hpend, hcalls, hinv.opened]
  descending := by rw [hids, hpend]; exact hinv.descending
  stored := hstored
  carried := hcarried
  answered := by rw [hreturned]; exact hinv.answered
  closed := by rw [hreturned, hids, hpend]; exact hinv.closed
  distinct := by rw [hreturned]; exact hinv.distinct

theorem RepliesInv.of_stack (hinv : RepliesInv s) (hcalls : calls next.stack = calls s.stack)
    (hpend : next.pendingSyncReplies = s.pendingSyncReplies)
    (hids : next.syncRequestID = s.syncRequestID)
    (hreturned : next.returned = s.returned) : RepliesInv next := by
  apply hinv.of_calls _ _ _ _ hids hreturned
  · exact fun connection => congrArg (callsOn connection) hcalls
  · rw [hcalls]
    exact hinv.carried
  · funext connection
    rw [pendingIDs, hpend, pendingIDs]
  · rw [hpend]
    exact hinv.stored

variable {connection : C} {entries : List (PendingSyncReply C)} {identifier : ℕ} {action : Action C}

theorem RepliesInv.head (hinv : RepliesInv s) {reply : Option (Reply C)}
    {rest : List ((C × ℕ) × Option (Reply C))}
    (hcalls : calls s.stack = ((connection, identifier), reply) :: rest) :
    pendingIDs s connection = identifier :: callsOn connection rest := by
  rw [hinv.opened, hcalls, callsOn, filterMap_cons, if_pos rfl, callsOn]

theorem pendingIDs_of_update
    (hpend : next.pendingSyncReplies = update s.pendingSyncReplies connection entries)
    (other : C) :
    pendingIDs next other =
      if other = connection then entries.map (·.syncRequestID) else pendingIDs s other := by
  rw [pendingIDs, hpend]
  split
  · next hother => rw [hother, update_self]
  · next hother => rw [update_of_ne hother, pendingIDs]

theorem RepliesInv.stored_of_update (hinv : RepliesInv s)
    (hpend : next.pendingSyncReplies = update s.pendingSyncReplies connection entries)
    (hentries : ∀ entry ∈ entries, ∀ reply, entry.replyDecoder = some reply →
      (reply.connection, reply.destinationID) = (connection, entry.syncRequestID))
    (other : C) :
    ∀ entry ∈ next.pendingSyncReplies other, ∀ reply, entry.replyDecoder = some reply →
      (reply.connection, reply.destinationID) = (other, entry.syncRequestID) := by
  by_cases hother : other = connection
  · subst hother
    rw [hpend, update_self]
    exact hentries
  · rw [hpend, update_of_ne hother]
    exact hinv.stored other

theorem RepliesInv.of_update (hinv : RepliesInv s)
    (hcalls : ∀ other, callsOn other (calls next.stack) = callsOn other (calls s.stack))
    (hcarried : ∀ call reply, (call, some reply) ∈ calls next.stack →
      (reply.connection, reply.destinationID) = call)
    (hpend : next.pendingSyncReplies = update s.pendingSyncReplies connection entries)
    (hsame : entries.map (·.syncRequestID) = pendingIDs s connection)
    (hstored : ∀ entry ∈ entries, ∀ reply, entry.replyDecoder = some reply →
      (reply.connection, reply.destinationID) = (connection, entry.syncRequestID))
    (hids : next.syncRequestID = s.syncRequestID) (hreturned : next.returned = s.returned) :
    RepliesInv next := by
  apply hinv.of_calls hcalls hcarried _ (hinv.stored_of_update hpend hstored) hids hreturned
  funext other
  rw [pendingIDs_of_update hpend, hsame]
  split
  · next hother => rw [hother]
  · rfl

theorem RepliesInv.checkReturns (hinv : RepliesInv s) {stack : List (Frame C)}
    {entry : PendingSyncReply C}
    (hstack : s.stack = .sendSyncMessage connection identifier .checking :: stack)
    (hentries : s.pendingSyncReplies connection = entry :: entries) :
    RepliesInv
      { s with
        stack := .sendSyncMessage connection identifier (.returning entry.replyDecoder) :: stack
        pendingSyncReplies := update s.pendingSyncReplies connection
          ({ entry with replyDecoder := none } :: entries) } := by
  have hstored := hinv.stored connection
  rw [hentries] at hstored
  have hcalls : calls s.stack = ((connection, identifier), none) :: calls stack := by
    rw [hstack]
    rfl
  have hident : entry.syncRequestID = identifier := by
    have hhead := hinv.head hcalls
    rw [pendingIDs, hentries] at hhead
    exact (List.cons.inj hhead).1
  apply hinv.of_update _ _ rfl
  · rw [pendingIDs, hentries]
    rfl
  · grind
  · rfl
  · rfl
  · intro other
    rw [hcalls]
    rfl
  · intro call reply hreturning
    obtain heq | hbelow := mem_cons.1 hreturning
    · grind
    · exact hinv.carried call reply (hcalls ▸ mem_cons_of_mem _ hbelow)

omit [DecidableEq C] in
theorem map_storeReply (reply : Reply C) (entries : List (PendingSyncReply C)) :
    (storeReply reply entries).map (·.syncRequestID) = entries.map (·.syncRequestID) := by
  induction entries with
  | nil => rfl
  | cons entry entries ih =>
    rw [storeReply]
    split
    · rw [map_cons, ih, map_cons]
    · rfl

omit [DecidableEq C] in
/-- What an entry holds after a reply was stored was there before, or is the reply under
its own identifier. -/
theorem mem_storeReply {reply : Reply C} {entry : PendingSyncReply C}
    (hentry : entry ∈ storeReply reply entries) :
    entry ∈ entries ∨
      entry.syncRequestID = reply.destinationID ∧ entry.replyDecoder = some reply := by
  induction entries with
  | nil => exact nomatch hentry
  | cons first entries ih => grind [storeReply]

theorem RepliesInv.processIncomingSyncReply (hinv : RepliesInv s) (connection : C)
    (destID : ℕ) :
    RepliesInv (processIncomingSyncReply s connection destID) := by
  apply hinv.of_update _ _ rfl (map_storeReply _ _)
  · intro entry hentry reply hreply
    obtain hold | ⟨hsame, hnew⟩ := mem_storeReply hentry
    · exact hinv.stored connection entry hold reply hreply
    · obtain rfl := Option.some.inj (hnew.symm.trans hreply)
      rw [hsame]
  · rfl
  · rfl
  · exact fun _ => rfl
  · exact hinv.carried

theorem RepliesInv.le_syncRequestID (hinv : RepliesInv s)
    (hmem : identifier ∈ pendingIDs s connection) :
    identifier ≤ s.syncRequestID connection :=
  Nat.lt_succ_iff.1 (rel_of_pairwise_cons (hinv.descending connection) hmem)

theorem RepliesInv.le_update (connection other : C) : s.syncRequestID other ≤
      update s.syncRequestID connection (s.syncRequestID connection + 1) other := by
  by_cases hother : other = connection
  · subst hother
    rw [update_self]
    exact Nat.le_succ _
  · rw [update_of_ne hother]

section

variable (hinv : RepliesInv s)
include hinv

theorem RepliesInv.refuseSyncMessage (connection : C) : RepliesInv
      { s with
        syncRequestID := update s.syncRequestID connection (s.syncRequestID connection + 1) } where
  opened := hinv.opened
  descending := fun other =>
    pairwise_cons.2
      ⟨fun _ hmem =>
        Nat.lt_succ_iff.2 ((hinv.le_syncRequestID hmem).trans (le_update connection other)),
        (pairwise_cons.1 (hinv.descending other)).2⟩
  stored := hinv.stored
  carried := hinv.carried
  answered := hinv.answered
  closed := fun call hcall =>
    ⟨(hinv.closed call hcall).1.trans (le_update connection call.1), (hinv.closed call hcall).2⟩
  distinct := hinv.distinct

/-- A call starts with a fresh identifier. -/
theorem RepliesInv.of_start (hcalls : calls next.stack =
      ((connection, s.syncRequestID connection + 1), none) :: calls s.stack)
    (hpend : next.pendingSyncReplies = update s.pendingSyncReplies connection
      (⟨s.syncRequestID connection + 1, none, false⟩ :: s.pendingSyncReplies connection))
    (hids : next.syncRequestID = update s.syncRequestID connection (s.syncRequestID connection + 1))
    (hreturned : next.returned = s.returned) : RepliesInv next where
  opened := by
    intro other
    rw [pendingIDs_of_update hpend, hcalls, callsOn, filterMap_cons, ← callsOn, ← hinv.opened]
    by_cases hother : other = connection
    · subst hother
      rw [if_pos rfl, if_pos rfl]
      rfl
    · rw [if_neg hother, if_neg (Ne.symm hother)]
  descending := by
    intro other
    rw [pendingIDs_of_update hpend, hids]
    by_cases hother : other = connection
    · subst hother
      rw [if_pos rfl, update_self]
      apply pairwise_cons.2 ⟨_, hinv.descending other⟩
      intro identifier hmem
      obtain rfl | hold := mem_cons.1 hmem
      · exact Nat.lt_succ_self _
      · exact (Nat.lt_succ_iff.2 (hinv.le_syncRequestID hold)).trans (Nat.lt_succ_self _)
    · rw [if_neg hother, update_of_ne hother]
      exact hinv.descending other
  stored := by
    apply hinv.stored_of_update hpend
    intro entry hentry reply hreply
    obtain rfl | hold := mem_cons.1 hentry
    · exact nomatch hreply
    · exact hinv.stored connection entry hold reply hreply
  carried := by
    intro call reply hmem
    rw [hcalls] at hmem
    obtain hnew | hold := mem_cons.1 hmem
    · exact nomatch hnew
    · exact hinv.carried call reply hold
  answered := by rw [hreturned]; exact hinv.answered
  closed := by
    intro call hcall
    rw [hreturned] at hcall
    obtain ⟨hle, hnot⟩ := hinv.closed call hcall
    rw [hids, pendingIDs_of_update hpend]
    refine ⟨hle.trans (le_update connection call.1), ?_⟩
    split
    · next hother =>
      intro hmem
      obtain heq | hold := mem_cons.1 hmem
      · rw [heq, hother] at hle
        exact Nat.not_succ_le_self _ hle
      · exact hnot (by rw [hother]; exact hold)
    · exact hnot
  distinct := by rw [hreturned]; exact hinv.distinct

/-- The innermost call returns. -/
theorem RepliesInv.of_return {reply : Option (Reply C)}
    (hcalls : calls s.stack = ((connection, identifier), reply) :: calls next.stack)
    (hpend : next.pendingSyncReplies = update s.pendingSyncReplies connection
      (s.pendingSyncReplies connection).tail)
    (hids : next.syncRequestID = s.syncRequestID)
    (hreturned : next.returned = s.returned ++ [((connection, identifier), reply)]) :
    RepliesInv next := by
  have hhead := hinv.head hcalls
  have htail : (s.pendingSyncReplies connection).tail.map (·.syncRequestID) =
      callsOn connection (calls next.stack) := by
    rw [map_tail]
    exact congrArg List.tail hhead
  have hdescending := hinv.descending connection
  rw [hhead] at hdescending
  have hfresh : identifier ∉ callsOn connection (calls next.stack) := fun hmem =>
    Nat.lt_irrefl _ (rel_of_pairwise_cons (pairwise_cons.1 hdescending).2 hmem)
  have hopen : ∀ other, pendingIDs next other = callsOn other (calls next.stack) := by
    intro other
    rw [pendingIDs_of_update hpend, htail]
    split
    · next hother => rw [hother]
    · next hother =>
      rw [hinv.opened, hcalls, callsOn, filterMap_cons, if_neg (Ne.symm hother), callsOn]
  have hsub : ∀ other, (pendingIDs next other).Sublist (pendingIDs s other) := by
    intro other
    rw [hopen, hinv.opened, hcalls]
    exact (sublist_cons_self _ _).filterMap _
  exact
    { opened := hopen
      descending := by
        intro other
        rw [hids]
        exact (hinv.descending other).sublist ((hsub other).cons_cons _)
      stored := hinv.stored_of_update hpend fun entry hentry =>
        hinv.stored connection entry (mem_of_mem_tail hentry)
      carried := fun call carried hmem =>
        hinv.carried call carried (hcalls ▸ mem_cons_of_mem _ hmem)
      answered := by
        intro call answer hmem
        rw [hreturned, mem_append, mem_singleton] at hmem
        obtain hold | hnew := hmem
        · exact hinv.answered call answer hold
        · exact hinv.carried call answer (hcalls ▸ hnew ▸ mem_cons_self)
      closed := by
        intro call hcall
        rw [hreturned, map_append, mem_append, map_singleton, mem_singleton] at hcall
        rw [hids]
        obtain hold | rfl := hcall
        · obtain ⟨hle, hnot⟩ := hinv.closed call hold
          exact ⟨hle, fun hmem => hnot ((hsub call.1).subset hmem)⟩
        · grind
      distinct := by
        rw [hreturned, map_append, map_singleton]
        apply hinv.distinct.append (nodup_singleton _)
        rw [disjoint_singleton]
        intro hmem
        exact (hinv.closed _ hmem).2 (hhead ▸ mem_cons_self) }

theorem RepliesInv.step (hmoves : Moves s action next) :
    RepliesInv next := by
  cases hmoves with
  | dispatchNext hstack | dispatchOwn hstack =>
    refine hinv.of_stack ?_ rfl rfl rfl
    rw [hstack, dispatch]
    split <;> rfl
  | checkReturns hstack hentries => exact hinv.checkReturns hstack hentries
  | returnReply hstack =>
    refine hinv.of_return ?_ rfl rfl rfl
    rw [hstack]
    rfl
  | sendSyncMessage => exact hinv.of_start rfl rfl rfl rfl
  | refuseSyncMessage connection => exact hinv.refuseSyncMessage connection
  | processIncomingSyncReply connection destID =>
    exact hinv.processIncomingSyncReply connection destID
  | dispatchEnd hstack | setAside hstack | putBack hstack | dispatchWaiting hstack
  | checkWaits hstack | checkInvalid hstack | wake hstack | timeOut hstack | leaveRunLoop hstack
  | returnToCaller hstack => exact hinv.of_stack (by rw [hstack]; rfl) rfl rfl rfl
  | _ => exact hinv.of_stack rfl rfl rfl rfl

end

/-! ## The calls around a call -/

theorem Moves.tail_suffix (hmoves : Moves s action next) : s.stack.tail <:+ next.stack := by
  obtain hsame | ⟨top, stack, hstack, hnext⟩ := hmoves.stack_cases
  · rw [hsame]
    exact List.tail_suffix _
  · rw [hstack, tail_cons]
    obtain hend | ⟨changed, hgoes⟩ | ⟨called, changed, hcalls, -⟩ := hnext
    · rw [hend]
    · rw [hgoes]
      exact suffix_cons _ _
    · rw [hcalls]
      exact (suffix_cons _ _).trans (suffix_cons _ _)

theorem Moves.suffix {outer : List (Frame C)} (hmoves : Moves s action next)
    (houter : outer <:+ s.stack) (hlen : outer.length < s.stack.length) :
    outer <:+ next.stack := by
  cases hstack : s.stack with
  | nil =>
    rw [hstack] at hlen
    exact absurd hlen (Nat.not_lt_zero _)
  | cons =>
    have htail := hmoves.tail_suffix
    rw [hstack] at houter hlen htail
    obtain rfl | hinner := suffix_cons_iff.1 houter
    · exact absurd hlen (Nat.lt_irrefl _)
    · exact hinner.trans htail

theorem Returns.stack_eq {after : State C} (hreturns : Returns connection s after) :
    after.stack = s.stack := by
  obtain ⟨called, actions, last, hcalled, hrun, hinside, hafter, hlen⟩ := hreturns
  have hsuffix : s.stack <:+ called.stack := by
    cases moves_of_step hcalled with
    | sendSyncMessage => exact suffix_cons _ _
    | refuseSyncMessage => exact suffix_rfl
  have hlast : s.stack <:+ last.stack :=
    run_of_always (fun houter hlonger hnext => (moves_of_step hnext).suffix houter hlonger)
      hsuffix hinside hrun
  have hend := (moves_of_step hafter).suffix hlast (hinside.last hrun)
  exact (hend.eq_of_length hlen.symm).symm

end Steps

/-- Results that tell whose they are occur once, when each call is recorded once. -/
theorem nodup_filterMap_snd {Call Result : Type} (caller : Result → Call)
    {returned : List (Call × Option Result)}
    (hcaller : ∀ call res, (call, some res) ∈ returned → caller res = call)
    (hnodup : (returned.map Prod.fst).Nodup) : (returned.filterMap Prod.snd).Nodup := by
  induction returned with
  | nil => exact nodup_nil
  | cons first rest ih => grind

theorem RepliesInv.repliesMatch {s : State C} (hinv : RepliesInv s) : RepliesMatch s where
  own := fun call reply hreturned => congrArg Prod.snd (hinv.answered call reply hreturned)
  once := nodup_filterMap_snd (fun reply => (reply.connection, reply.destinationID))
    hinv.answered hinv.distinct
  balanced := by
    intro connection after hreturns
    have hstack := hreturns.stack_eq
    obtain ⟨called, actions, last, hcalled, hrun, -, hafter, -⟩ := hreturns
    have hend : RepliesInv after :=
      (run_of_step (fun hinv _ hnext => hinv.step (moves_of_step hnext))
        (hinv.step (moves_of_step hcalled)) (meets_true called actions) hrun).step
          (moves_of_step hafter)
    have hsame : ∀ other, pendingIDs after other = pendingIDs s other := by
      intro other
      rw [hend.opened, hstack, hinv.opened]
    refine ⟨?_, hsame⟩
    rw [hsame]
    exact fun hmem => Nat.not_succ_le_self _ (hinv.le_syncRequestID hmem)

/-- In every run, with calls nested to any depth, replies in any order, timeouts and
closed connections, each call of `sendSyncMessage` gets its own reply. -/
theorem sendSyncMessage_repliesMatch (actions : List (Action C)) :
    Always step RepliesMatch (.start C) actions := by
  have hinv : Always step RepliesInv (.start C) actions :=
    always_of_step (fun hinv _ hnext => hinv.step (moves_of_step hnext)) repliesInv_start
      (meets_true _ actions)
  exact hinv.mono fun _ => RepliesInv.repliesMatch

/-- The pending replies of a connection are its open calls, innermost first. -/
theorem pending_replies_are_open_calls (actions : List (Action C)) :
    Always step RepliesInv (.start C) actions :=
  always_of_step (fun hinv _ hnext => hinv.step (moves_of_step hnext)) repliesInv_start
    (meets_true _ actions)

end PurcFetcher.Ipc.Sync
