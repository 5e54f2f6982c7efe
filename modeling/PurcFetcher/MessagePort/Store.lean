import PurcFetcher.MessagePort.Registry

/-!
# The channels of the registry

The registry finds the side of a channel for a port.  An operation on a port changes that side
and no other.  A channel is destroyed when nothing refers to it any more, which is only the case
after both of its ports were closed.
-/

namespace PurcFetcher.MessagePort

open PurcFetcher.HashMap

variable {Message : Type}

/-! ## The side of a port -/

namespace State

/-- The side of the channel that the registry has for the port. -/
def side (state : State Message) (port : MessagePortIdentifier) : Option (Side Message) :=
  (state.existingChannelContainingPort port).map fun entry => entry.2.side port

def pendingMessages (state : State Message) (port : MessagePortIdentifier) : List Message :=
  ((state.side port).map Side.pendingMessages).getD []

/-- The process that the port is entangled with. -/
def processForPort (state : State Message) (port : MessagePortIdentifier) :
    Option ProcessIdentifier :=
  (state.side port).bind Side.process

end State

/-- A side that is not closed is entangled or on its way to another process, and both keep the
channel. -/
def Side.Held (side : Side Message) : Prop :=
  side.isClosed = false →
    side.entangledToProcessProtector = true ∨ side.pendingMessagePortTransfers = true

/-- A port of the registry has a channel, and a side that was closed was found there. -/
structure StoreInv (state : State Message) : Prop where
  registered : ∀ {port identity}, state.openChannels.lookup port = some identity →
    ∃ channel, state.channels.lookup identity = some channel ∧
      (port = channel.first.port ∨ port = channel.second.port)
  held : ∀ {identity channel}, state.channels.lookup identity = some channel →
    channel.first.Held ∧ channel.second.Held
  closedFirst : ∀ {identity channel}, state.channels.lookup identity = some channel →
    channel.first.isClosed = true → state.openChannels.lookup channel.first.port = some identity
  closedSecond : ∀ {identity channel}, state.channels.lookup identity = some channel →
    channel.second.isClosed = true →
      state.openChannels.lookup channel.second.port = some identity ∧
        channel.second.port ≠ channel.first.port
  below : ∀ {identity channel}, state.channels.lookup identity = some channel →
    identity < state.nextChannel

theorem storeInv_initial : StoreInv (State.initial : State Message) where
  registered hlookup := absurd hlookup nofun
  held hlookup := absurd hlookup nofun
  closedFirst hlookup := absurd hlookup nofun
  closedSecond hlookup := absurd hlookup nofun
  below hlookup := absurd hlookup nofun

section Lookup

variable {s : State Message} {port : MessagePortIdentifier} {identity : ℕ}
  {channel : Channel Message}

theorem existingChannelContainingPort_eq_some_iff :
    s.existingChannelContainingPort port = some (identity, channel) ↔
      s.openChannels.lookup port = some identity ∧ s.channels.lookup identity = some channel := by
  rw [State.existingChannelContainingPort, Option.bind_eq_some_iff]
  constructor
  · simp_all
  · grind

theorem side_eq (hchan : s.channels.lookup identity = some channel)
    (hopen : s.openChannels.lookup port = some identity) :
    s.side port = some (channel.side port) := by
  rw [State.side, existingChannelContainingPort_eq_some_iff.2 ⟨hopen, hchan⟩]
  rfl

variable (s) in
theorem side_eq_none (hclosed : s.openChannels.lookup port = none) : s.side port = none := by
  rw [State.side, State.existingChannelContainingPort, hclosed]
  rfl

theorem side_congr {next : State Message}
    (hopen : next.openChannels.lookup port = s.openChannels.lookup port)
    (hchannels : next.channels = s.channels) : next.side port = s.side port := by
  rw [State.side, State.side, State.existingChannelContainingPort,
    State.existingChannelContainingPort, hopen, hchannels]

theorem side_of_kept (hinv : StoreInv s) (next : State Message)
    (hopen : next.openChannels = s.openChannels)
    (hkept : ∀ {key before}, s.channels.lookup key = some before →
      ∃ held, next.channels.lookup key = some held ∧ held.first = before.first ∧
        held.second = before.second)
    (port : MessagePortIdentifier) : next.side port = s.side port := by
  cases hlookup : s.openChannels.lookup port with
  | none =>
    rw [side_eq_none s hlookup]
    exact side_eq_none next (hopen.symm ▸ hlookup)
  | some =>
    obtain ⟨before, hbefore, -⟩ := hinv.registered hlookup
    obtain ⟨held, hheld, hfirst, hsecond⟩ := hkept hbefore
    rw [side_eq hbefore hlookup, side_eq hheld (hopen.symm ▸ hlookup), Channel.side,
      Channel.side, hfirst, hsecond]

end Lookup

/-! ## Changes of a channel -/

section Modify

variable {channel : Channel Message} {port other : MessagePortIdentifier}
  {change : Side Message → Side Message}

variable (hkeeps : ∀ side, (change side).port = side.port)
include hkeeps

theorem Channel.side_modify :
    (channel.modify port change).side port = change (channel.side port) := by
  rw [Channel.modify, Channel.side, Channel.side]
  split
  · next hfirst => rw [if_pos ((hkeeps channel.first).symm ▸ hfirst)]
  · rfl

theorem Channel.side_modify_of_ne (hport : port = channel.first.port ∨ port = channel.second.port)
    (hother : other = channel.first.port ∨ other = channel.second.port) (hne : other ≠ port) :
    (channel.modify port change).side other = channel.side other := by
  rw [Channel.modify, Channel.side, Channel.side]
  split
  · grind
  · grind

theorem Channel.ports_modify :
    (channel.modify port change).first.port = channel.first.port ∧
      (channel.modify port change).second.port = channel.second.port := by
  rw [Channel.modify]
  split
  · exact ⟨hkeeps channel.first, rfl⟩
  · exact ⟨rfl, hkeeps channel.second⟩

end Modify

/-! ## Changes of the store -/

section SetSide

variable {s : State Message} {port : MessagePortIdentifier} {identity : ℕ}
  {channel : Channel Message} {change : Side Message → Side Message}

/-- The state in which the side of a port and the number of batches of its channel have
changed. -/
def State.setSide (state : State Message) (port : MessagePortIdentifier) (identity : ℕ)
    (channel : Channel Message) (change : Side Message → Side Message) (batches : ℕ) :
    State Message :=
  state.setChannel identity { channel.modify port change with messageBatchesInFlight := batches }

theorem side_setSide (hinv : StoreInv s) (hopen : s.openChannels.lookup port = some identity)
    (hchan : s.channels.lookup identity = some channel)
    (hkeeps : ∀ side, (change side).port = side.port) (batches : ℕ)
    (other : MessagePortIdentifier) :
    (s.setSide port identity channel change batches).side other =
      if other = port then some (change (channel.side port)) else s.side other := by
  obtain ⟨found, hfound, hport⟩ := hinv.registered hopen
  obtain rfl : channel = found := Option.some.inj (hchan.symm.trans hfound)
  have hset : (s.setSide port identity channel change batches).channels.lookup identity =
      some { channel.modify port change with messageBatchesInFlight := batches } :=
    AList.lookup_insert _
  by_cases hsame : other = port
  · subst hsame
    rw [if_pos rfl]
    exact (side_eq hset hopen).trans (congrArg some (Channel.side_modify hkeeps))
  · rw [if_neg hsame]
    cases hother : s.openChannels.lookup other with
    | none => exact (side_eq_none (s.setSide _ _ _ _ _) hother).trans (side_eq_none s hother).symm
    | some otherIdentity =>
      obtain ⟨otherChan, hotherChan, hotherPort⟩ := hinv.registered hother
      by_cases hsameChan : otherIdentity = identity
      · subst hsameChan
        obtain rfl : channel = otherChan := Option.some.inj (hchan.symm.trans hotherChan)
        refine (side_eq hset hother).trans ?_
        rw [side_eq hchan hother]
        exact congrArg some (Channel.side_modify_of_ne hkeeps hport hotherPort hsame)
      · have hkept : (s.setSide port identity channel change batches).channels.lookup
            otherIdentity = some otherChan :=
          (AList.lookup_insert_ne hsameChan).trans hotherChan
        exact (side_eq hkept hother).trans (side_eq hotherChan hother).symm

theorem StoreInv.setSide (hinv : StoreInv s) (hopen : s.openChannels.lookup port = some identity)
    (hchan : s.channels.lookup identity = some channel)
    (hkeeps : ∀ side, (change side).port = side.port)
    (hheld : ∀ side, side.Held → (change side).Held) (batches : ℕ) :
    StoreInv (s.setSide port identity channel change batches) := by
  obtain ⟨found, hfound, hport⟩ := hinv.registered hopen
  obtain rfl : channel = found := Option.some.inj (hchan.symm.trans hfound)
  obtain ⟨hfirstPort, hsecondPort⟩ := @Channel.ports_modify _ channel port change hkeeps
  have hlookup : ∀ {key held},
      (s.setSide port identity channel change batches).channels.lookup key = some held →
        key = identity ∧
            held = { channel.modify port change with messageBatchesInFlight := batches } ∨
          key ≠ identity ∧ s.channels.lookup key = some held := by
    intro key held hheld
    rw [State.setSide, State.setChannel, lookup_insert_eq_ite] at hheld
    split at hheld
    · next hkey => exact Or.inl ⟨hkey, (Option.some.inj hheld).symm⟩
    · next hkey => exact Or.inr ⟨hkey, hheld⟩
  refine ⟨fun {key found} hkey => ?_, fun hkey => ?_, fun hkey hclosed => ?_,
    fun hkey hclosed => ?_, fun hkey => ?_⟩
  · obtain ⟨held, hheld, hends⟩ := hinv.registered hkey
    by_cases hsame : found = identity
    · subst hsame
      obtain rfl : channel = held := Option.some.inj (hchan.symm.trans hheld)
      refine ⟨_, AList.lookup_insert _, ?_⟩
      rwa [hfirstPort, hsecondPort]
    · exact ⟨held, (AList.lookup_insert_ne hsame).trans hheld, hends⟩
  · rcases hlookup hkey with ⟨rfl, rfl⟩ | ⟨-, hkept⟩
    · obtain ⟨hfirst, hsecond⟩ := hinv.held hchan
      rw [Channel.modify]
      split
      · exact ⟨hheld _ hfirst, hsecond⟩
      · exact ⟨hfirst, hheld _ hsecond⟩
    · exact hinv.held hkept
  · rcases hlookup hkey with ⟨rfl, rfl⟩ | ⟨-, hkept⟩
    · rw [Channel.modify] at hclosed hfirstPort ⊢
      split at hclosed
      · next hfirst =>
        rw [if_pos hfirst] at hfirstPort ⊢
        exact hfirstPort ▸ hfirst ▸ hopen
      · next hsecond =>
        have hfirst := hinv.closedFirst hchan hclosed
        rwa [if_neg hsecond]
    · exact hinv.closedFirst hkept hclosed
  · rcases hlookup hkey with ⟨rfl, rfl⟩ | ⟨-, hkept⟩
    · rw [hfirstPort, hsecondPort]
      rw [Channel.modify] at hclosed
      split at hclosed
      · exact hinv.closedSecond hchan hclosed
      · next hsecond =>
        have hsame := hport.resolve_left hsecond
        exact ⟨hsame ▸ hopen, hsame ▸ hsecond⟩
    · exact hinv.closedSecond hkept hclosed
  · rcases hlookup hkey with ⟨rfl, -⟩ | ⟨-, hkept⟩
    · exact hinv.below hchan
    · exact hinv.below hkept

end SetSide

/-! ## The destruction of a channel -/

section Release

variable {s : State Message} {identity : ℕ} {channel : Channel Message}

/-- A channel without references has both sides closed, and the registry has it for both
ports. -/
theorem StoreInv.unreferenced (hinv : StoreInv s)
    (hchan : s.channels.lookup identity = some channel)
    (hunreferenced : s.isReferenced identity channel = false) :
    (channel.first.isClosed = true ∧
        s.openChannels.lookup channel.first.port = some identity) ∧
      channel.second.isClosed = true ∧
        s.openChannels.lookup channel.second.port = some identity ∧
          channel.second.port ≠ channel.first.port := by
  have hclosed : ∀ side : Side Message, side.Held → side.isReferring = false →
      side.isClosed = true := by
    intro side hheld hreferring
    rw [Side.isReferring, Bool.or_eq_false_iff, Bool.or_eq_false_iff] at hreferring
    by_contra hopen
    rcases hheld (Bool.eq_false_of_not_eq_true hopen) with hentangled | htransfer
    · exact absurd (hentangled.symm.trans hreferring.1.1) Bool.false_ne_true.symm
    · exact absurd (htransfer.symm.trans hreferring.1.2) Bool.false_ne_true.symm
  rw [State.isReferenced, Bool.or_eq_false_iff, Bool.or_eq_false_iff] at hunreferenced
  obtain ⟨hfirst, hsecond⟩ := hinv.held hchan
  have hfirstClosed := hclosed _ hfirst hunreferenced.1.1
  have hsecondClosed := hclosed _ hsecond hunreferenced.1.2
  exact ⟨⟨hfirstClosed, hinv.closedFirst hchan hfirstClosed⟩, hsecondClosed,
    hinv.closedSecond hchan hsecondClosed⟩

theorem release_cases (s : State Message) (identity : ℕ) :
    s.release identity = s ∨
      ∃ channel, s.channels.lookup identity = some channel ∧
        s.isReferenced identity channel = false ∧
        s.release identity =
          { s with
            channels := s.channels.erase identity
            openChannels :=
              (s.openChannels.erase channel.first.port).erase channel.second.port } := by
  rw [State.release]
  split
  · exact Or.inl rfl
  · grind

theorem lookup_erase_ports (port : MessagePortIdentifier) :
    ((s.openChannels.erase channel.first.port).erase channel.second.port).lookup port =
      if port = channel.second.port ∨ port = channel.first.port then none
      else s.openChannels.lookup port := by
  rw [lookup_erase_eq_ite, lookup_erase_eq_ite]
  by_cases hsecond : port = channel.second.port
  · rw [if_pos hsecond, if_pos (Or.inl hsecond)]
  · rw [if_neg hsecond]
    exact if_congr (or_iff_right hsecond).symm rfl rfl

variable (hinv : StoreInv s)
include hinv

theorem StoreInv.lookup_left (hchan : s.channels.lookup identity = some channel)
    {port : MessagePortIdentifier}
    {found : ℕ}
    (hfound : ((s.openChannels.erase channel.first.port).erase channel.second.port).lookup
      port = some found) :
    s.openChannels.lookup port = some found ∧ found ≠ identity := by
  rw [lookup_erase_ports] at hfound
  split at hfound
  · cases hfound
  · next hother =>
    refine ⟨hfound, fun hsame => hother ?_⟩
    subst hsame
    obtain ⟨held, hheld, hends⟩ := hinv.registered hfound
    obtain rfl : channel = held := Option.some.inj (hchan.symm.trans hheld)
    exact hends.symm

theorem StoreInv.release (identity : ℕ) : StoreInv (s.release identity) := by
  rcases release_cases s identity with hsame | ⟨channel, hchan, hunreferenced, hnext⟩
  · rwa [hsame]
  · obtain ⟨⟨-, hfirst⟩, -, hsecond, -⟩ := hinv.unreferenced hchan hunreferenced
    have hkept : ∀ {key held}, (s.channels.erase identity).lookup key = some held →
        key ≠ identity ∧ s.channels.lookup key = some held := by
      intro key held hheld
      rw [lookup_erase_eq_ite] at hheld
      split at hheld
      · cases hheld
      · next hne => exact ⟨hne, hheld⟩
    -- the ports of another channel are not those of the destroyed one
    have hopen : ∀ {port key}, key ≠ identity → s.openChannels.lookup port = some key →
        ((s.openChannels.erase channel.first.port).erase channel.second.port).lookup port =
          some key := by
      intro port key hne hport
      rw [lookup_erase_ports, if_neg, hport]
      rintro (rfl | rfl)
      · exact hne (Option.some.inj (hport.symm.trans hsecond))
      · exact hne (Option.some.inj (hport.symm.trans hfirst))
    rw [hnext]
    refine ⟨fun hlookup => ?_, fun hlookup => ?_, fun hlookup hclosed => ?_,
      fun hlookup hclosed => ?_, fun hlookup => ?_⟩
    · obtain ⟨hfound, hne⟩ := hinv.lookup_left hchan hlookup
      obtain ⟨held, hheld, hends⟩ := hinv.registered hfound
      exact ⟨held, (AList.lookup_erase_ne hne).trans hheld, hends⟩
    · exact hinv.held (hkept hlookup).2
    · obtain ⟨hne, hheld⟩ := hkept hlookup
      exact hopen hne (hinv.closedFirst hheld hclosed)
    · obtain ⟨hne, hheld⟩ := hkept hlookup
      obtain ⟨hport, hdistinct⟩ := hinv.closedSecond hheld hclosed
      exact ⟨hopen hne hport, hdistinct⟩
    · exact hinv.below (hkept hlookup).2

/-- The destruction of a channel takes away closed sides only. -/
theorem side_release (identity : ℕ) (port : MessagePortIdentifier) :
    (s.release identity).side port = s.side port ∨
      (s.release identity).side port = none ∧
        ∃ side, s.side port = some side ∧ side.isClosed = true := by
  rcases release_cases s identity with hsame | ⟨channel, hchan, hunreferenced, hnext⟩
  · exact Or.inl (by rw [hsame])
  · obtain ⟨⟨hfirstClosed, hfirst⟩, hsecondClosed, hsecond, hdistinct⟩ :=
      hinv.unreferenced hchan hunreferenced
    rw [hnext]
    cases hleft : ((s.openChannels.erase channel.first.port).erase
        channel.second.port).lookup port with
    | some =>
      obtain ⟨hfound, hne⟩ := hinv.lookup_left hchan hleft
      obtain ⟨held, hheld, -⟩ := hinv.registered hfound
      have hkept := (AList.lookup_erase_ne hne).trans hheld
      exact Or.inl ((side_eq hkept hleft).trans (side_eq hheld hfound).symm)
    | none =>
      have hnone : State.side
          { s with
            channels := s.channels.erase identity
            openChannels := (s.openChannels.erase channel.first.port).erase channel.second.port }
          port = none := side_eq_none _ hleft
      rw [lookup_erase_ports] at hleft
      split at hleft
      · next hport =>
        refine Or.inr ⟨hnone, channel.side port, ?_, ?_⟩
        · grind [side_eq]
        · grind [Channel.side]
      · exact Or.inl (hnone.trans (side_eq_none s hleft).symm)

end Release

end PurcFetcher.MessagePort
