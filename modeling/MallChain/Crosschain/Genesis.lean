import MallChain.Crosschain.Bookkeeping
import MallChain.Crosschain.Payments
import MallChain.Crosschain.Records

namespace Crosschain

open Sdk TransitionSystem

structure GenesisState where
  params      : Params
  bridgeState : BridgeState

def initGenesis (genState : GenesisState) (s : State) : State :=
  { s with params := genState.params, bridgeState := some genState.bridgeState }

def exportGenesis (s : State) : Result GenesisState := do
  let bridgeState ← orFail s.bridgeState errNotFound
  return { params := s.params, bridgeState }

-- The chain that starts from an export: the module has empty stores, and the bank and the IBC transfer
-- module have what they had.
def State.restarted (s : State) (genState : GenesisState) : State :=
  initGenesis genState { bank := s.bank, ibc := s.ibc }

-- What settles a transfer before the export settles it afterwards, with the same payments.
def Survives (k : Keeper) (s r : State) (id : UInt64) : Prop :=
  ∀ e s', k.react s e = .ok s' → s'.status id ≠ some .pending →
    ∃ r', k.react r e = .ok r' ∧ r'.status id = s'.status id ∧ r'.bank = s'.bank

-- The amount of a transfer is a 64-bit number.
def BridgeTransfer.Sized (t : BridgeTransfer) : Prop :=
  ∃ amount, t.amount = some amount ∧ 0 ≤ amount.amount ∧ amount.amount < 2 ^ 64

def State.Sized (s : State) : Prop :=
  ∀ id t, s.bridgeTransfers.get id = some t → t.Sized

variable {k : Keeper} {s : State} {id : UInt64} {t : BridgeTransfer} {g : GenesisState}

-- The limits of the parameters are 64-bit numbers.
theorem lasting_sized : Lasting k fun _ t => t.Sized where
  initiate := by
    intro _ s msg _ _ h
    obtain ⟨t, ht, _, ha, hmin, hlim⟩ := of_initiate h
    have hmax := s.params.maxTransferAmount.toNat_lt
    exact ⟨t, ht, msg.amount, ha, by omega, by omega⟩
  settle _ ht := ht

theorem sized (k : Keeper) : (system k).Invariant (fun _ _ => True) State.Sized :=
  each lasting_sized

-- A packet whose memo names a transfer.
def packetOf (id : UInt64) : Packet where
  sourcePort       := defaultPortID
  sourceChannel    := ""
  sequence         := 0
  timeoutTimestamp := 0
  data             := some
    { denom := "", amount := 0, sender := "", receiver := "", memo := formatBridgeMemo id }

theorem packetOf_transferID : (packetOf id).transferID = some id :=
  parse_format

theorem moveTransferToCompleted_ok {b : BridgeState} (hb : s.bridgeState = some b) (ht : t.Sized) :
    ∃ m, moveTransferToCompleted s id t = .ok m := by
  obtain ⟨amount, ha, hn, hlt⟩ := ht
  have hr : ¬(amount.amount < 0 ∨ 2 ^ 64 ≤ amount.amount) := by omega
  simp only [moveTransferToCompleted, hb, orFail, Option.elim, Result.ok_bind, ha, uint64, failIf,
    if_neg hr, pure, Except.pure]
  exact ⟨_, rfl⟩

-- An acknowledgement settles every pending transfer.
theorem ack_settles {b : BridgeState} (hs : s.Sized) (hb : s.bridgeState = some b)
    (hg : s.bridgeTransfers.get id = some t) (hp : t.status = .pending) :
    ∃ s', k.react s (.ack (packetOf id) (some .result)) = .ok s' ∧
      s'.status id = some .completed := by
  have hmove : ∃ m, moveTransferToCompleted
      { s with bridgeTransfers := s.bridgeTransfers.set id { t with status := .completed } } id
      { t with status := .completed } = .ok m := moveTransferToCompleted_ok hb (hs id t hg)
  obtain ⟨m, hm⟩ := hmove
  refine ⟨m, ?_, ?_⟩
  · simp only [Keeper.react, logged_handleOutboundIBCAck, if_true, packetOf_transferID, Option.elim,
      Keeper.completeAcknowledgedTransfer, hg, orFail, Result.ok_bind, hp, ne_eq, not_true, if_false,
      pure, Except.pure]
    rw [hm]
    rfl
  · have hmv : Moved id t s m := of_move hm hg hp rfl rfl
    rw [status_of_set hmv.transfers, Function.update_self]

-- After the restart no transfer is known.
theorem restarted_ack {genState : GenesisState} {acknowledgement : Option Acknowledgement} :
    k.react (s.restarted genState) (.ack (packetOf id) acknowledgement) =
      .ok (s.restarted genState) := by
  simp only [Keeper.react, logged_handleOutboundIBCAck, packetOf_transferID]
  split <;> rfl

theorem not_survives (hs : s.Sized) (hg : exportGenesis s = .ok g)
    (hpend : s.status id = some .pending) : ¬Survives k s (s.restarted g) id := by
  intro hsurv
  simp only [exportGenesis, Result.bind_eq_ok, orFail_eq_ok] at hg
  obtain ⟨b, hb, _⟩ := hg
  obtain ⟨t, ht, hp⟩ := Option.map_eq_some_iff.mp hpend
  obtain ⟨s', hr, hst⟩ := ack_settles (k := k) hs hb ht hp
  obtain ⟨r', hr', hst', _⟩ := hsurv _ s' hr (by simp [hst])
  rw [restarted_ack, Except.ok.injEq] at hr'
  rw [← hr', hst] at hst'
  cases hst'

end Crosschain
