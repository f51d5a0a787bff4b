import MallChain.Lib.Transition
import MallChain.Crosschain.Keeper

namespace Crosschain

open Sdk

-- What can happen around the bridge: its messages and blocks, a change of the routes, transfers of
-- others, and what the other chains and the relayers do with the packets in flight.
inductive Action
  | initiate (ctx : Context) (msg : MsgInitiateBridgeTransfer)
  | complete (ctx : Context) (msg : MsgCompleteBridgeTransfer)
  | updateParams (authority : String) (params : Params)
  | setChainRoute (chain : String) (route : ChainRoute)
  | endBlock (ctx : Context)
  | transfer (ctx : Context) (sourcePort sourceChannel : String) (token : Coin) (payer : AccAddress)
    (sender receiver : String) (timeoutTimestamp : UInt64) (memo : String)
  | receive (f : Flight) (acknowledgement : Acknowledgement)
  | acknowledge (f : Flight)
  | timeout (f : Flight)
  | send (fromAddr toAddr : AccAddress) (amt : Coins)

namespace Keeper

-- The other chain answers a packet once.
def receive (s : State) (f : Flight) (acknowledgement : Acknowledgement) : Result State := do
  failIf (f ∉ s.ibc.flights ∨ f.received ≠ none) (.error "no such packet")
  let flights := { f with received := some acknowledgement } :: s.ibc.flights.erase f
  return { s with ibc := { s.ibc with flights } }

def acknowledge (s : State) (f : Flight) : Result State := do
  failIf (f ∉ s.ibc.flights) (.error "no such packet")
  let acknowledgement ← orFail f.received (.error "no acknowledgement")
  IBCModule.onAcknowledgementPacket s f acknowledgement

-- A packet times out only when the other chain has not received it.
def timeout (k : Keeper) (s : State) (f : Flight) : Result State := do
  failIf (f ∉ s.ibc.flights ∨ f.received ≠ none) (.error "no such packet")
  IBCModule.onTimeoutPacket k s f

def act (k : Keeper) (s : State) : Action → Result State
  | .initiate ctx msg => return (← k.initiateBridgeTransfer ctx s msg).1
  | .complete ctx msg => k.completeBridgeTransfer ctx s msg
  | .updateParams authority params => updateParams s authority params
  | .setChainRoute chain route => .ok { s with chainRoutes := s.chainRoutes.set chain route }
  | .endBlock ctx => k.endBlocker ctx s
  | .transfer ctx sourcePort sourceChannel token payer sender receiver timeoutTimestamp memo =>
    return (← Ibc.transfer ctx s sourcePort sourceChannel token payer sender receiver
      timeoutTimestamp memo).1
  | .receive f acknowledgement => receive s f acknowledgement
  | .acknowledge f => acknowledge s f
  | .timeout f => k.timeout s f
  | .send fromAddr toAddr amt => return { s with bank := ← s.bank.sendCoins fromAddr toAddr amt }

-- The state after an action. What fails is reverted.
def next (k : Keeper) (s : State) (a : Action) : State :=
  (k.act s a).toOption.getD s

theorem act_next {k : Keeper} {s : State} {a : Action} (h : (k.act s a).isOk = true) :
    k.act s a = .ok (k.next s a) := by
  rw [next]
  cases hs : k.act s a <;> simp_all [Except.isOk, Except.toBool, Except.toOption]

def signer (k : Keeper) : Action → Option AccAddress
  | .initiate _ msg => k.accAddressFromBech32 msg.sender
  | .transfer _ _ _ _ payer .. => some payer
  | .send fromAddr .. => some fromAddr
  | _ => none

-- Coins that are moved are valid, and nobody signs for the module account, which has no key.
def Allowed (k : Keeper) (a : Action) : Prop :=
  k.signer a ≠ some k.moduleAddr ∧
    ∀ fromAddr toAddr amt, a = .send fromAddr toAddr amt → amt.isValid = true

end Keeper

-- The module before its first transfer.
structure State.Empty (k : Keeper) (s : State) : Prop where
  transfers : s.bridgeTransfers = .empty
  records   : s.transferMeta = .empty
  flights   : s.ibc.flights = []
  balance   : ∀ d, 0 ≤ s.bank.balances k.moduleAddr d

-- A failure is no step.
def system (k : Keeper) : TransitionSystem State Action where
  init s      := s.Empty k
  step s a s' := k.Allowed a ∧ k.act s a = .ok s'

-- The transfer that the memo of a packet names.
def Packet.transferID (p : Packet) : Option UInt64 :=
  p.data.bind fun data => parseBridgeMemo data.memo

namespace Keeper

-- The packets of the bridge itself that are in flight.
def own (k : Keeper) (s : State) : Multiset Flight :=
  (s.ibc.flights : Multiset Flight).filter fun f => f.sender = k.moduleAddr

-- The coins of a transfer have left the module account with a packet.
def Out (k : Keeper) (s : State) (id : UInt64) : Prop :=
  some id ∈ (k.own s).map (·.packet.transferID)

instance {k : Keeper} {s : State} {id : UInt64} : Decidable (k.Out s id) :=
  inferInstanceAs (Decidable (_ ∈ _))

end Keeper

-- A chain on which one account sends coins over a route and another one to a chain without a route.
namespace Sample

def alice : AccAddress := .ofBytes [1]
def bob : AccAddress := .ofBytes [2]
def mallory : AccAddress := .ofBytes [3]

def keeper : Keeper where
  moduleAddr       := .ofBytes [200]
  moduleAddrString := "module"
  accAddressFromBech32
    | "alice" => some alice
    | "bob" => some bob
    | _ => none
  parseProof
    | "" => none
    | _ => some {
      clientID       := "07-tendermint-0"
      revisionNumber := 0
      revisionHeight := 1
      height         := 0
      proofBytes     := [1]
    }

-- One second for each block.
def block (height : UInt64) : Context where
  blockHeight   := height
  blockTime     := height.toNat * 1000000000
  isBonded addr := addr = bob
  lightClients  := {
    route            := fun clientID => clientID = "07-tendermint-0"
    active           := fun _ => true
    verifyMembership := fun _ _ _ _ _ => true
  }
  channelAccept _ channelID _ := channelID = "channel-0"

def genesis : State where
  bank        := {
    balances     := fun a d =>
      if (a = alice ∨ a = bob ∨ a = mallory) ∧ d = "umlcn" then 100 else 0
    supply       := fun d => if d = "umlcn" then 300 else 0
    blockedAddrs := fun _ => false
  }
  params      := {
    adminAddress          := "gov"
    supportedChains       := ["osmosis", "fantom"]
    minTransferAmount     := 1
    maxTransferAmount     := 1000
    transferTimeoutBlocks := 10
  }
  bridgeState := some { nextTransferId := 1 }
  chainRoutes := KVStore.empty.set "osmosis" ⟨"osmosis-1", "channel-0", ""⟩
  ibc         := { nextSequence := fun _ _ => 1, flights := [] }

-- Transfer 1 goes out with a packet, and the coins of transfer 2 stay in the module account.
def routed : Action :=
  .initiate (block 1) ⟨"alice", "osmo1alice", ⟨"umlcn", 100⟩, "osmosis"⟩

def routeless : Action :=
  .initiate (block 5) ⟨"bob", "ftm1bob", ⟨"umlcn", 100⟩, "fantom"⟩

def packet : Packet where
  sourcePort       := "transfer"
  sourceChannel    := "channel-0"
  sequence         := 1
  timeoutTimestamp := 51000000000
  data             := some ⟨"umlcn", 100, "module", "osmo1alice", "crosschain:1"⟩

def flight : Flight where
  packet   := packet
  sender   := keeper.moduleAddr
  coin     := ⟨"umlcn", 100⟩
  received := none

def sent : State :=
  keeper.next genesis routed

def escrowed : State :=
  keeper.next sent routeless

-- The transfers expire after the packet was sent and before it is delivered.
def expire : Action :=
  .endBlock (block 12)

def expired : State :=
  keeper.next escrowed expire

def deliver : Action :=
  .receive flight .result

theorem genesis_empty : genesis.Empty keeper where
  transfers := rfl
  records   := rfl
  flights   := rfl
  balance d := by
    simp only [genesis]
    split_ifs <;> decide

theorem sent_step : (system keeper).step genesis routed sent :=
  ⟨⟨by decide, by simp [routed]⟩, Keeper.act_next (by decide +kernel)⟩

theorem escrowed_step : (system keeper).step sent routeless escrowed :=
  ⟨⟨by decide, by simp [routeless]⟩, Keeper.act_next (by decide +kernel)⟩

theorem deliver_step {s : State} (h : (keeper.act s deliver).isOk = true) :
    (system keeper).step s deliver (keeper.next s deliver) :=
  ⟨⟨by decide, by simp [deliver]⟩, Keeper.act_next h⟩

theorem expired_step : (system keeper).step escrowed expire expired :=
  ⟨⟨by decide, by simp [expire]⟩, Keeper.act_next (by decide +kernel)⟩

end Sample

end Crosschain
