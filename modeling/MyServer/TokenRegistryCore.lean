import Mathlib

/-!
`publisher::runtime::TokenRegistry`, method by method. A `std::array` is a function on
indices together with an explicit bounds check at every access; a thrown exception or a
failed assertion keeps the state it left behind, so every method is an `EStateM` program.
Indices, tokens and stack heights are natural numbers; `channelRefCount_`, which calls that
throw can raise without bound, is the 64-bit `std::size_t`.
-/

namespace MyServer

@[ext]
structure PublishToken where
  value : Nat
  deriving DecidableEq, Repr

def kInvalidToken : PublishToken := ⟨2 ^ 32 - 1⟩

inductive ChannelGroup
  | Group0
  | Group1
  | Group2
  | Group3
  deriving DecidableEq, Repr

def ChannelGroup.toIndex : ChannelGroup → Nat
  | .Group0 => 0
  | .Group1 => 1
  | .Group2 => 2
  | .Group3 => 3

inductive ChannelMode
  | Exclusive
  | Shared
  deriving DecidableEq, Repr

def kMaxBindings : Nat := 256
def kMaxChannels : Nat := 4
def kMaxGroups : Nat := 4
def kNoChannel : Nat := 2 ^ 64 - 1

structure TokenRegistry where
  nextToken : Nat
  tokenToChannel : Nat → Nat
  tokenUsed : Nat → Bool
  freeTokens : Nat → PublishToken
  freeTokenCount : Nat
  freeChannels : Nat → Nat
  freeChannelCount : Nat
  channelRefCount : Nat → UInt64
  channelMode : Nat → ChannelMode
  groupToChannel : Nat → Nat

inductive Failure
  | throws (what : String)
  | aborts (assertion : String)
  | outOfBounds
  deriving DecidableEq, Repr

abbrev RegistryM := EStateM Failure TokenRegistry

/-- The `std::array` access check; the C++ code has undefined behaviour where it fails. -/
def checkIndex (index size : Nat) : RegistryM Unit :=
  if index < size then pure () else throw .outOfBounds

def require (condition : Bool) (assertion : String) : RegistryM Unit :=
  if condition then pure () else throw (.aborts assertion)

namespace TokenRegistry

def initial : TokenRegistry where
  nextToken := 0
  tokenToChannel := fun _ => 0
  tokenUsed := fun _ => false
  freeTokens := fun _ => ⟨0⟩
  freeTokenCount := 0
  freeChannels := fun i => if i < kMaxChannels then i else 0
  freeChannelCount := kMaxChannels
  channelRefCount := fun _ => 0
  channelMode := fun _ => .Exclusive
  groupToChannel := fun _ => kNoChannel

def popFreeChannel : RegistryM Nat := do
  if (← get).freeChannelCount = 0 then
    throw (.throws "No free channels available")
  modify fun registry => { registry with freeChannelCount := registry.freeChannelCount - 1 }
  let registry ← get
  checkIndex registry.freeChannelCount kMaxChannels
  return registry.freeChannels registry.freeChannelCount

def pushFreeChannel (channelIdx : Nat) : RegistryM Unit := do
  let registry ← get
  require (registry.freeChannelCount < kMaxChannels) "Free channel stack overflow"
  checkIndex registry.freeChannelCount kMaxChannels
  set { registry with
    freeChannels := Function.update registry.freeChannels registry.freeChannelCount channelIdx
    freeChannelCount := registry.freeChannelCount + 1 }

/-- The choice `allocateToken` makes: a recycled token, else the next fresh one. -/
def nextFreeToken : RegistryM PublishToken := do
  if (← get).freeTokenCount > 0 then
    modify fun registry => { registry with freeTokenCount := registry.freeTokenCount - 1 }
    let registry ← get
    checkIndex registry.freeTokenCount kMaxBindings
    return registry.freeTokens registry.freeTokenCount
  else
    if (← get).nextToken ≥ kMaxBindings then
      throw (.throws "TokenRegistry capacity exceeded")
    let token : PublishToken := ⟨(← get).nextToken⟩
    modify fun registry => { registry with nextToken := registry.nextToken + 1 }
    return token

def allocateToken (channelIdx : Nat) : RegistryM PublishToken := do
  let token ← nextFreeToken
  checkIndex token.value kMaxBindings
  modify fun registry => { registry with
    tokenToChannel := Function.update registry.tokenToChannel token.value channelIdx
    tokenUsed := Function.update registry.tokenUsed token.value true }
  return token

def setChannel (channelIdx : Nat) (count : UInt64) (mode : ChannelMode) : RegistryM Unit := do
  checkIndex channelIdx kMaxChannels
  modify fun registry => { registry with
    channelRefCount := Function.update registry.channelRefCount channelIdx count
    channelMode := Function.update registry.channelMode channelIdx mode }

def acquire : RegistryM PublishToken := do
  let channelIdx ← popFreeChannel
  setChannel channelIdx 1 .Exclusive
  allocateToken channelIdx

/-- The branch of `acquire(group)` that finds no channel in use for the group. -/
def openGroup (groupIdx : Nat) : RegistryM Nat := do
  let channelIdx ← popFreeChannel
  setChannel channelIdx 1 .Shared
  modify fun registry => { registry with
    groupToChannel := Function.update registry.groupToChannel groupIdx channelIdx }
  return channelIdx

def acquireGroup (group : ChannelGroup) : RegistryM PublishToken := do
  let groupIdx := group.toIndex
  require (groupIdx < kMaxGroups) "Invalid group index"
  checkIndex groupIdx kMaxGroups
  let registry ← get
  let channelIdx := registry.groupToChannel groupIdx
  if channelIdx ≠ kNoChannel then
    checkIndex channelIdx kMaxChannels
    if registry.channelRefCount channelIdx > 0 then
      setChannel channelIdx (registry.channelRefCount channelIdx + 1) .Shared
      allocateToken channelIdx
    else
      allocateToken (← openGroup groupIdx)
  else
    allocateToken (← openGroup groupIdx)

def isValidToken (registry : TokenRegistry) (token : PublishToken) : Bool :=
  token.value < registry.nextToken

/-- The scan of `release` over the groups `group, group + 1, ...`, left at the first match. -/
def resetGroupFrom (channelIdx : Nat) : (remaining group : Nat) → RegistryM Unit
  | 0, _ => pure ()
  | remaining + 1, group => do
    checkIndex group kMaxGroups
    let registry ← get
    if registry.groupToChannel group = channelIdx then
      set { registry with
        groupToChannel := Function.update registry.groupToChannel group kNoChannel }
    else
      resetGroupFrom channelIdx remaining (group + 1)

/-- `--channelRefCount_[channelIdx]`, and what follows for the last user of the channel. -/
def dropReference (channelIdx : Nat) : RegistryM Unit := do
  checkIndex channelIdx kMaxChannels
  let registry ← get
  require (registry.channelRefCount channelIdx > 0) "Channel ref count underflow"
  let count := registry.channelRefCount channelIdx - 1
  set { registry with channelRefCount := Function.update registry.channelRefCount channelIdx count }
  if count = 0 then
    pushFreeChannel channelIdx
    resetGroupFrom channelIdx kMaxGroups 0

def release (token : PublishToken) : RegistryM Unit := do
  if !(isValidToken (← get) token) then
    throw (.throws "Attempt to release invalid token")
  checkIndex token.value kMaxBindings
  if !((← get).tokenUsed token.value) then
    throw (.throws "Attempt to release already free token")
  if (← get).freeTokenCount ≥ kMaxBindings then
    throw (.throws "Free token pool overflow")
  dropReference ((← get).tokenToChannel token.value)
  let registry ← get
  checkIndex registry.freeTokenCount kMaxBindings
  set { registry with
    tokenUsed := Function.update registry.tokenUsed token.value false
    freeTokens := Function.update registry.freeTokens registry.freeTokenCount token
    freeTokenCount := registry.freeTokenCount + 1 }

def resolve (token : PublishToken) : RegistryM Nat := do
  require (isValidToken (← get) token) "Invalid publish token"
  checkIndex token.value kMaxBindings
  require ((← get).tokenUsed token.value) "Inactive publish token"
  return (← get).tokenToChannel token.value

end TokenRegistry

inductive Call
  | acquire
  | acquireGroup (group : ChannelGroup)
  | release (token : PublishToken)
  deriving DecidableEq, Repr

/-- How a call ended: with a token, without a value, or not at all. -/
inductive Outcome
  | returned (token : PublishToken)
  | released
  | failed (failure : Failure)
  deriving DecidableEq, Repr

def TokenRegistry.call (registry : TokenRegistry) : Call → Outcome × TokenRegistry
  | .acquire =>
      match TokenRegistry.acquire registry with
      | .ok token next => (.returned token, next)
      | .error failure next => (.failed failure, next)
  | .acquireGroup group =>
      match TokenRegistry.acquireGroup group registry with
      | .ok token next => (.returned token, next)
      | .error failure next => (.failed failure, next)
  | .release token =>
      match TokenRegistry.release token registry with
      | .ok () next => (.released, next)
      | .error failure next => (.failed failure, next)

end MyServer
