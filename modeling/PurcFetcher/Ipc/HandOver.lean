import PurcFetcher.Core.Entries
import PurcFetcher.Ipc.WaitForMessage

/-!
# Messages that are handed to a waiting call

The connection queue moves the message of a waiting call into `m_waitingForMessage`.  A call
that comes out of its wait asks first whether it has timed out or was interrupted, and
returns null then without a look at the message.  So a message is swallowed that is handed
over after the timeout, or to a call that is interrupted in its wait, and so is one whose
call is interrupted by a close before it wakes up.
-/

namespace PurcFetcher.Ipc.Wait

open Machine List

variable {Name : Type}

/-- The message in `m_waitingForMessage`. -/
def MainThread.decoder? : MainThread Name → Option (Message Name)
  | .waiting waiter _ => waiter.decoder
  | _ => none

/-- The message that the connection queue is about to pass on. -/
def ConnectionQueue.message? : ConnectionQueue Name → Option (Message Name)
  | .examining message => some message
  | .offering message => some message
  | .enqueueing message => some message
  | _ => none

/-- Where a message can be once it was passed on. -/
def State.passedOn (state : State Name) : List (Message Name) :=
  state.handed.map Prod.snd ++ state.returned.filterMap Prod.snd ++ state.incomingMessages ++
    state.messagesToDispatch ++ state.dispatched

def AllPlaced (state : State Name) : Prop :=
  ∀ message ∈ state.arrived,
    message ∈ state.passedOn ∨ state.connectionQueue.message? = some message

/-- A message that was handed to a call is in `m_waitingForMessage` or was returned by that
call, and every other message is on its way. -/
structure NoneSwallowed (state : State Name) : Prop where
  handed : ∀ entry ∈ state.handed,
    (entry.1 = state.calls ∧ state.mainThread.decoder? = some entry.2) ∨
      (entry.1, some entry.2) ∈ state.returned
  placed : AllPlaced state

/-- The call returns the message that is in `m_waitingForMessage`. -/
def MainThread.returnsDecoder : MainThread Name → Bool
  | .waiting _ .dispatching => true
  | .waiting _ .checking => true
  | .waiting waiter .notified => !waiter.messageWaitingInterrupted
  | _ => false

variable [DecidableEq Name]

/-- The connection queue is about to hand its message over. -/
def State.handsOver (state : State Name) : Bool :=
  match state.connectionQueue, state.mainThread with
  | .examining message, .waiting waiter _ => waiter.decoder.isNone && waiter.request.awaits message
  | _, _ => false

/-- A message is handed only to a call that will return it, and the connection is not closed
between a hand-over and the return. -/
def HandsOverInTime (state : State Name) : Action Name → Prop
  | .examine _ => state.handsOver = true → state.mainThread.notify.returnsDecoder = true
  | .connectionDidClose => state.mainThread.decoder? ≠ none →
      state.mainThread.interrupt.returnsDecoder = true
  | _ => True

/-! ## The main thread -/

section MainThread

omit [DecidableEq Name]

variable {mainThread : MainThread Name}

theorem decoder?_notify : mainThread.notify.decoder? = mainThread.decoder? := by
  cases mainThread with
  | waiting waiter phase => cases phase <;> rfl
  | _ => rfl

theorem decoder?_interrupt : mainThread.interrupt.decoder? = mainThread.decoder? := by
  cases mainThread <;> rfl

theorem returnsDecoder_notify (hreturns : mainThread.returnsDecoder = true) :
    mainThread.notify.returnsDecoder = true := by
  cases mainThread with
  | waiting waiter phase => cases phase <;> first | exact hreturns | contradiction
  | _ => exact hreturns

theorem returnsDecoder_handOver (waiter : WaitForMessageState Name) (phase : Phase)
    (msg : Message Name) :
    (MainThread.waiting { waiter with decoder := some msg } phase).notify.returnsDecoder =
      (MainThread.waiting waiter phase).notify.returnsDecoder := by
  cases phase <;> rfl

theorem notify_eq_idle_iff : mainThread.notify = .idle ↔ mainThread = .idle := by
  cases mainThread with
  | waiting waiter phase => cases phase <;> simp [MainThread.notify]
  | _ => rfl

theorem interrupt_eq_idle_iff : mainThread.interrupt = .idle ↔ mainThread = .idle := by
  cases mainThread <;> simp [MainThread.interrupt]

end MainThread

/-! ## No message is lost on its way -/

section Places

omit [DecidableEq Name]

variable {state next : State Name}

theorem mem_passedOn_iff (msg : Message Name) :
    msg ∈ state.passedOn ↔
      msg ∈ state.handed.map Prod.snd ∨ msg ∈ state.returned.filterMap Prod.snd ∨
        msg ∈ state.incomingMessages ∨ msg ∈ state.messagesToDispatch ∨ msg ∈ state.dispatched := by
  simp only [State.passedOn, mem_append, or_assoc]

theorem passedOn_subset_finish (res : Option (Message Name)) :
    state.passedOn ⊆ (state.finish res).passedOn := by
  intro msg hmsg
  rw [mem_passedOn_iff] at hmsg ⊢
  refine hmsg.imp_right (Or.imp_left fun hreturned => ?_)
  rw [State.finish, filterMap_append]
  exact mem_append_left _ hreturned

theorem passedOn_subset_dispatchMessages : state.passedOn ⊆ state.dispatchMessages.passedOn := by
  grind [mem_passedOn_iff, State.dispatchMessages]

theorem AllPlaced.of_subset (hplaced : AllPlaced state) (harrived : next.arrived = state.arrived)
    (hqueue : next.connectionQueue = state.connectionQueue)
    (hsubset : state.passedOn ⊆ next.passedOn) : AllPlaced next := by
  intro msg hmsg
  rw [harrived] at hmsg
  rw [hqueue]
  exact (hplaced msg hmsg).imp_left fun hpassed => hsubset hpassed

theorem AllPlaced.of_passed {msg : Message Name} (hplaced : AllPlaced state)
    (harrived : next.arrived = state.arrived)
    (hqueue : state.connectionQueue.message? = some msg)
    (hpassed : ∀ other, other ∈ state.passedOn ∨ other = msg → other ∈ next.passedOn) :
    AllPlaced next := by
  intro other hother
  rw [harrived] at hother
  refine Or.inl (hpassed other ((hplaced other hother).imp_right fun hmsg => ?_))
  exact Option.some.inj (hmsg.symm.trans hqueue)

end Places

section Steps

variable {state next : State Name} {action : Action Name}

theorem AllPlaced.step (hplaced : AllPlaced state) (hstep : step state action = some next) :
    AllPlaced next := by
  cases transition_of_step hstep with
  | scanFound hmain hfind =>
    refine hplaced.of_subset rfl rfl fun msg hmsg => ?_
    rw [mem_passedOn_iff, (Entries.perm_cons_eraseP hfind).mem_iff, mem_cons] at hmsg
    simp only [mem_passedOn_iff, State.finish, filterMap_append, mem_append,
      filterMap_cons, filterMap_nil, mem_singleton]
    tauto
  | scanInterrupted | installRefused | wakeInterrupted
  | resume => exact hplaced.of_subset rfl rfl (passedOn_subset_finish none)
  | dispatchMessages | dispatchTask =>
    exact hplaced.of_subset rfl rfl passedOn_subset_dispatchMessages
  | checkFound => exact hplaced.of_subset rfl rfl (passedOn_subset_finish _)
  | dispatchIncoming hincoming =>
    refine hplaced.of_subset rfl rfl fun msg hmsg => ?_
    rw [mem_passedOn_iff, hincoming, mem_cons] at hmsg
    simp only [mem_passedOn_iff, mem_append, mem_singleton]
    tauto
  | receive hqueue =>
    intro other hother
    rcases mem_append.1 hother with hold | hnew
    · refine (hplaced other hold).imp_right fun hmsg => ?_
      rw [hqueue] at hmsg
      contradiction
    · exact Or.inr (congrArg some (mem_singleton.1 hnew).symm)
  | pass hqueue | offerLeft hqueue | connectionDidClose hqueue | notifyAll hqueue =>
    rw [AllPlaced, hqueue] at hplaced
    exact hplaced
  | handOver hqueue =>
    refine hplaced.of_passed rfl (by rw [hqueue]; rfl) fun other hother => ?_
    simp only [mem_passedOn_iff, map_append, mem_append, map_singleton, mem_singleton] at hother ⊢
    tauto
  | takeSync hqueue | offerTaken hqueue | interrupt hqueue | enqueue hqueue =>
    refine hplaced.of_passed rfl (by rw [hqueue]; rfl) fun other hother => ?_
    simp only [mem_passedOn_iff, mem_append, mem_singleton] at hother ⊢
    tauto
  | _ => exact hplaced

/-! ## Handed messages are returned -/

theorem handsOver_iff :
    state.handsOver = true ↔ ∃ msg waiter phase,
      state.connectionQueue = .examining msg ∧ state.mainThread = .waiting waiter phase ∧
        waiter.decoder = none ∧ waiter.request.awaits msg = true := by
  rw [State.handsOver]
  constructor
  · split
    · simp_all
    · exact fun hfalse => absurd hfalse Bool.false_ne_true
  · grind

/-- The call that has a message returns it. -/
structure HandInv (state : State Name) : Prop where
  returns : state.mainThread.decoder? ≠ none → state.mainThread.returnsDecoder = true
  handed : ∀ entry ∈ state.handed,
    (entry.1 = state.calls ∧ state.mainThread.decoder? = some entry.2) ∨
      (entry.1, some entry.2) ∈ state.returned

omit [DecidableEq Name] in
theorem HandInv.of_decoder (hinv : HandInv state) (hcalls : next.calls = state.calls)
    (hhanded : next.handed = state.handed) (hreturned : next.returned = state.returned)
    (hdec : next.mainThread.decoder? = state.mainThread.decoder?)
    (hreturns : state.mainThread.decoder? ≠ none → state.mainThread.returnsDecoder = true →
      next.mainThread.returnsDecoder = true) : HandInv next where
  returns := fun hsome => by
    rw [hdec] at hsome
    exact hreturns hsome (hinv.returns hsome)
  handed := by
    rw [hcalls, hhanded, hreturned, hdec]
    exact hinv.handed

omit [DecidableEq Name] in
theorem HandInv.finish (hinv : HandInv state) {res : Option (Message Name)}
    (hres : ∀ msg, state.mainThread.decoder? = some msg → res = some msg) :
    HandInv (state.finish res) where
  returns := fun hsome => absurd rfl hsome
  handed := by
    rintro ⟨call, msg⟩ hentry
    refine Or.inr (mem_append.2 ?_)
    rcases hinv.handed _ hentry with ⟨hcall, hdec⟩ | hreturned
    · rw [hres msg hdec]
      exact Or.inr (mem_singleton.2 (Prod.ext hcall rfl))
    · exact Or.inl hreturned

omit [DecidableEq Name] in
theorem HandInv.finish_of_none (hinv : HandInv state) (hnone : state.mainThread.decoder? = none)
    (res : Option (Message Name)) : HandInv (state.finish res) := by
  refine hinv.finish fun msg hdec => ?_
  rw [hnone] at hdec
  contradiction

omit [DecidableEq Name] in
theorem HandInv.decoder?_eq_none (hinv : HandInv state)
    (hreturns : state.mainThread.returnsDecoder = false) :
    state.mainThread.decoder? = none := by
  by_contra hsome
  rw [hinv.returns hsome] at hreturns
  contradiction

theorem HandInv.step (hinv : HandInv state) (hcond : HandsOverInTime state action)
    (hstep : step state action = some next) : HandInv next := by
  cases transition_of_step hstep with
  | waitForMessage hmain =>
    refine ⟨fun hsome => absurd rfl hsome, fun entry hentry => Or.inr ?_⟩
    refine (hinv.handed entry hentry).resolve_left fun hcur => ?_
    rw [hmain] at hcur
    exact absurd hcur.2 nofun
  | @scanFound request msg hmain hfind =>
    have hrest : HandInv
        { state with incomingMessages := state.incomingMessages.eraseP request.awaits } :=
      ⟨hinv.returns, hinv.handed⟩
    exact hrest.finish_of_none (show state.mainThread.decoder? = none by rw [hmain]; rfl) _
  | scanInterrupted hmain | installRefused hmain =>
    exact hinv.finish_of_none (by rw [hmain]; rfl) none
  | scanMissed hmain =>
    refine hinv.of_decoder rfl rfl rfl (by rw [hmain]; rfl) fun hsome => ?_
    rw [hmain] at hsome
    exact absurd rfl hsome
  | install hmain | dispatchMessages hmain | wake hmain =>
    exact hinv.of_decoder rfl rfl rfl (by rw [hmain]; rfl) fun _ _ => rfl
  | checkFound hmain hdec =>
    refine hinv.finish fun msg hheld => ?_
    rw [hmain] at hheld
    exact hdec.symm.trans hheld
  | park hmain hdec =>
    refine hinv.of_decoder rfl rfl rfl (by rw [hmain]; rfl) fun hsome => ?_
    rw [hmain] at hsome
    exact absurd hdec hsome
  | expire hmain =>
    refine hinv.of_decoder rfl rfl rfl (by rw [hmain]; rfl) fun _ hreturns => ?_
    rw [hmain] at hreturns
    contradiction
  | wakeInterrupted hmain hinterrupted =>
    apply hinv.finish_of_none (hinv.decoder?_eq_none _) none
    simp [hmain, MainThread.returnsDecoder, hinterrupted]
  | resume hmain => exact hinv.finish_of_none (hinv.decoder?_eq_none (by rw [hmain]; rfl)) none
  | @handOver msg unbounded waiter phase hqueue hmain hdec hawaits =>
    have hreturns := hcond (handsOver_iff.2 ⟨msg, waiter, phase, hqueue, hmain, hdec, hawaits⟩)
    rw [hmain] at hreturns
    refine ⟨fun _ => (returnsDecoder_handOver waiter phase msg).trans hreturns, ?_⟩
    intro entry hentry
    rcases mem_append.1 hentry with hold | hnew
    · refine Or.inr ((hinv.handed entry hold).resolve_left fun hcur => ?_)
      rw [hmain] at hcur
      exact absurd (hdec.symm.trans hcur.2) nofun
    · rw [mem_singleton.1 hnew]
      exact Or.inl ⟨rfl, decoder?_notify⟩
  | takeSync | notifyAll =>
    exact hinv.of_decoder rfl rfl rfl decoder?_notify fun _ => returnsDecoder_notify
  | interrupt hqueue hmain hdec =>
    refine hinv.of_decoder rfl rfl rfl (decoder?_notify.trans decoder?_interrupt) fun hsome => ?_
    rw [hmain] at hsome
    exact absurd hdec hsome
  | connectionDidClose =>
    exact hinv.of_decoder rfl rfl rfl decoder?_interrupt fun hsome _ => hcond hsome
  | _ => exact ⟨hinv.returns, hinv.handed⟩

/-! ## Messages that are swallowed -/

/-- What holds in every run. -/
structure CallsInv (state : State Name) : Prop where
  past : ∀ entry ∈ state.returned, entry.1 ≤ state.calls
  current : state.mainThread ≠ .idle → ∀ entry ∈ state.returned, entry.1 ≠ state.calls
  source : ∀ message, state.mainThread.decoder? = some message →
    (state.calls, message) ∈ state.handed

omit [DecidableEq Name] in
theorem CallsInv.finish (hinv : CallsInv state) (res : Option (Message Name)) :
    CallsInv (state.finish res) where
  past := by
    intro entry hentry
    rcases mem_append.1 hentry with hold | hnew
    · exact hinv.past entry hold
    · exact Nat.le_of_eq (congrArg Prod.fst (mem_singleton.1 hnew))
  current := fun hidle => absurd rfl hidle
  source := nofun

omit [DecidableEq Name] in
theorem CallsInv.of_decoder (hinv : CallsInv state) (hcalls : next.calls = state.calls)
    (hhanded : next.handed = state.handed) (hreturned : next.returned = state.returned)
    (hidle : state.mainThread = .idle → next.mainThread = .idle)
    (hdec : next.mainThread.decoder? = state.mainThread.decoder?) : CallsInv next where
  past := by
    rw [hcalls, hreturned]
    exact hinv.past
  current := by
    rw [hcalls, hreturned]
    exact fun hcur => hinv.current fun hbefore => hcur (hidle hbefore)
  source := by
    rw [hcalls, hhanded, hdec]
    exact hinv.source

theorem CallsInv.step (hinv : CallsInv state) (hstep : step state action = some next) :
    CallsInv next := by
  cases transition_of_step hstep with
  | waitForMessage =>
    refine ⟨fun entry hentry => Nat.le_succ_of_le (hinv.past entry hentry),
      fun _ entry hentry => ?_, nofun⟩
    exact Nat.ne_of_lt (Nat.lt_succ_of_le (hinv.past entry hentry))
  | @scanFound request message hmain hfind =>
    have hrest : CallsInv
        { state with incomingMessages := state.incomingMessages.eraseP request.awaits } :=
      ⟨hinv.past, hinv.current, hinv.source⟩
    exact hrest.finish _
  | scanInterrupted | installRefused | wakeInterrupted
  | resume => exact hinv.finish none
  | checkFound => exact hinv.finish _
  | scanMissed hmain | install hmain | dispatchMessages hmain | park hmain
  | expire hmain | wake hmain =>
    exact hinv.of_decoder rfl rfl rfl (by simp [hmain]) (by rw [hmain]; rfl)
  | @handOver message unbounded waiter phase hqueue hmain hdec hawaits =>
    refine ⟨hinv.past, fun _ => hinv.current (by simp [hmain]), fun other hother => ?_⟩
    rw [decoder?_notify] at hother
    obtain rfl := Option.some.inj hother
    exact mem_append_right _ (mem_singleton_self _)
  | takeSync | notifyAll => exact hinv.of_decoder rfl rfl rfl notify_eq_idle_iff.2 decoder?_notify
  | interrupt hqueue hmain =>
    exact hinv.of_decoder rfl rfl rfl (by simp [hmain]) (decoder?_notify.trans decoder?_interrupt)
  | connectionDidClose =>
    exact hinv.of_decoder rfl rfl rfl interrupt_eq_idle_iff.2 decoder?_interrupt
  | _ => exact ⟨hinv.past, hinv.current, hinv.source⟩

omit [DecidableEq Name] in
theorem not_noneSwallowed_finish (hinv : CallsInv state) {msg : Message Name}
    (hdec : state.mainThread.decoder? = some msg) :
    ¬ NoneSwallowed (state.finish none) := by
  intro hnone
  have hcur : state.mainThread ≠ .idle := fun hidle => by
    rw [hidle] at hdec
    contradiction
  rcases hnone.handed _ (hinv.source msg hdec) with ⟨-, hidle⟩ | hreturned
  · exact absurd hidle nofun
  · rcases mem_append.1 hreturned with hold | hnew
    · exact hinv.current hcur _ hold rfl
    · exact absurd (congrArg Prod.snd (mem_singleton.1 hnew)) nofun

/-- A call that does not return the message it has swallows it. -/
theorem exists_swallowed (hinv : CallsInv state) {msg : Message Name}
    (hdec : state.mainThread.decoder? = some msg)
    (hreturns : state.mainThread.returnsDecoder = false) :
    ∃ actions final, run Wait.step state actions = some final ∧ ¬ NoneSwallowed final := by
  have hswallowed := not_noneSwallowed_finish hinv hdec
  suffices hrun : ∃ actions, run Wait.step state actions = some (state.finish none) from
    hrun.imp fun actions hacts => ⟨_, hacts, hswallowed⟩
  cases hmain : state.mainThread with
  | waiting waiter phase =>
    rw [hmain] at hreturns
    cases phase with
    | dispatching => contradiction
    | checking => contradiction
    | parked => exact ⟨[.expire, .resume], by simp [run, Wait.step, hmain, State.finish]⟩
    | notified =>
      have hinterrupted : waiter.messageWaitingInterrupted = true := by
        simpa [MainThread.returnsDecoder] using hreturns
      exact ⟨[.wake], by simp [run, Wait.step, hmain, hinterrupted]⟩
    | expired => exact ⟨[.resume], by simp [run, Wait.step, hmain]⟩
  | _ =>
    rw [hmain] at hdec
    contradiction

/-- After a step that is not in time, the call may swallow its message. -/
theorem exists_swallowed_of_late (hinv : CallsInv state) (hlate : ¬ HandsOverInTime state action)
    (hstep : Wait.step state action = some next) :
    ∃ actions final, run Wait.step next actions = some final ∧ ¬ NoneSwallowed final := by
  have hnext := hinv.step hstep
  cases action with
  | examine =>
    rw [HandsOverInTime] at hlate
    push Not at hlate
    obtain ⟨hhands, hreturns⟩ := hlate
    obtain ⟨msg, waiter, phase, hqueue, hmain, hdec, hawaits⟩ := handsOver_iff.1 hhands
    rw [Wait.step, hqueue] at hstep
    obtain rfl := Option.some.inj hstep
    simp only [examine, hmain, hdec, hawaits, Option.isSome_none, Bool.false_eq_true,
      if_false, if_true] at hnext ⊢
    rw [hmain] at hreturns
    exact exists_swallowed hnext decoder?_notify
      ((returnsDecoder_handOver waiter phase msg).trans ((Bool.not_eq_true _).mp hreturns))
  | connectionDidClose =>
    rw [HandsOverInTime] at hlate
    push Not at hlate
    obtain ⟨hsome, hreturns⟩ := hlate
    obtain ⟨msg, hdec⟩ := Option.ne_none_iff_exists'.1 hsome
    rw [Wait.step] at hstep
    split_ifs at hstep
    obtain rfl := Option.some.inj hstep
    exact exists_swallowed hnext (decoder?_interrupt.trans hdec) ((Bool.not_eq_true _).mp hreturns)
  | _ => exact absurd trivial hlate

end Steps

/-- No message is swallowed in every run in which messages are handed only to calls that will
return them and no close comes between a hand-over and the return; and after a step that is
not so, the message may be swallowed. -/
theorem noneSwallowed_of_handsOverInTime :
    (∀ actions : List (Action Name), Meets step HandsOverInTime (State.start Name) actions →
      Always step NoneSwallowed (State.start Name) actions) ∧
    ∀ (actions : List (Action Name)) (state next : State Name) (action : Action Name),
      run step (State.start Name) actions = some state → ¬ HandsOverInTime state action →
        step state action = some next →
          ∃ later final, run step next later = some final ∧ ¬ NoneSwallowed final := by
  constructor
  · intro actions hmeets
    have hhand : Always step HandInv (State.start Name) actions :=
      always_of_step (fun hinv hcondition hstep => hinv.step hcondition hstep)
        ⟨fun hsome => absurd rfl hsome, nofun⟩ hmeets
    have hplaced : Always step AllPlaced (State.start Name) actions :=
      always_of_step (fun hinv _ hstep => hinv.step hstep) nofun (meets_true _ _)
    exact (hhand.and hplaced).mono fun _ hinv => ⟨hinv.1.handed, hinv.2⟩
  · intro actions state next action hrun hlate hstep
    have hcalls := run_of_step (fun hinv _ hstep => CallsInv.step hinv hstep)
      (show CallsInv (State.start Name) from ⟨nofun, nofun, nofun⟩) (meets_true _ _) hrun
    exact exists_swallowed_of_late hcalls hlate hstep

theorem noneSwallowed_servedCall :
    Meets step HandsOverInTime (State.start ℕ) servedCall ∧
      Always step NoneSwallowed (State.start ℕ) servedCall := by
  have hmeets : Meets step HandsOverInTime (State.start ℕ) servedCall := by
    have hdecided : Meets step (fun state action => action ≠ .connectionDidClose ∧
        (state.handsOver = true → state.mainThread.notify.returnsDecoder = true))
        (State.start ℕ) servedCall := by
      decide +kernel
    refine hdecided.mono fun state action hboth => ?_
    cases action with
    | examine => exact hboth.2
    | connectionDidClose => exact absurd rfl hboth.1
    | _ => trivial
  exact ⟨hmeets, noneSwallowed_of_handsOverInTime.1 servedCall hmeets⟩

/-- The message is handed over after the timeout and before the call has the lock. -/
def swallowingCall : List (Action ℕ) :=
  [.waitForMessage 7 1 noOptions, .scan, .install, .dispatchMessages, .check, .expire,
    .receive 7 1 false .no, .examine false, .resume]

theorem noneSwallowed_fails :
    ∃ final, run step (State.start ℕ) swallowingCall = some final ∧
      final.handed = [(1, ⟨0, 7, 1, false, .no⟩)] ∧ final.returned = [(1, none)] ∧
        ¬ NoneSwallowed final := by
  refine ⟨_, run_eq_after (by decide +kernel), by decide +kernel, by decide +kernel, ?_⟩
  intro hnone
  have hhanded := hnone.handed (1, ⟨0, 7, 1, false, .no⟩) (by decide +kernel)
  revert hhanded
  decide +kernel

end PurcFetcher.Ipc.Wait
