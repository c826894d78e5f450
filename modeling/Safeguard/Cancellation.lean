/-!
# Cancellation tokens

Tokens form a forest: cancelling a token cancels everything below it. Whoever
watches a token is told when it is cancelled, and watchers of the token itself are told
last, after those of everything below it. A token that nobody holds any more leaves the
forest; its place among its siblings is taken by the one in the last place.

## Main definitions

* `TokenForest`: the tokens.
* `TokenForest.root`, `TokenForest.child`: new tokens.
* `TokenForest.cancel`: cancelling, with the order in which watchers are told.
* `TokenForest.drop`: one holder fewer.
-/

namespace Safeguard

/-- The number of a token. -/
abbrev TokenId := Nat

/-- A cancellation token. -/
structure Token where
  /-- The token it hangs from. -/
  parent : Option TokenId
  /-- The tokens that hang from it, by place. A new one takes the last place. -/
  children : List TokenId
  /-- Whether it has been cancelled. -/
  cancelled : Bool
  /-- How many still hold it. -/
  holders : Nat
deriving DecidableEq, Repr

/-- All tokens ever made, numbered in the order of their making. -/
structure TokenForest where
  tokens : List Token
deriving DecidableEq, Repr

namespace TokenForest

/-- No tokens. -/
def empty : TokenForest := ⟨[]⟩

/-- Whether a token has been cancelled. -/
def isCancelled (f : TokenForest) (id : TokenId) : Bool :=
  f.tokens[id]?.elim false (·.cancelled)

/-- The tokens that hang from a token. -/
def children (f : TokenForest) (id : TokenId) : List TokenId :=
  f.tokens[id]?.elim [] (·.children)

/-- Changes one token. -/
def modify (f : TokenForest) (id : TokenId) (change : Token → Token) : TokenForest :=
  ⟨f.tokens.modify id change⟩

/-- A new token that hangs from none. -/
def root (f : TokenForest) : TokenForest × TokenId :=
  (⟨f.tokens ++ [⟨none, [], false, 1⟩]⟩, f.tokens.length)

/-- A new token that hangs from the given one and has that many holders. Below a
cancelled token it is cancelled from the start and hangs from none. -/
def child (f : TokenForest) (parent : TokenId) (holders : Nat) : TokenForest × TokenId :=
  let id := f.tokens.length
  if f.isCancelled parent then (⟨f.tokens ++ [⟨none, [], true, holders⟩]⟩, id)
  else
    (⟨(f.modify parent fun t => { t with children := t.children ++ [id] }).tokens ++
      [⟨some parent, [], false, holders⟩]⟩, id)

/-- The tokens that cancelling reaches from a queue of tokens, in the order in which
watchers are told. A token's children that are not cancelled yet join the end of the
queue, the last place first. A token that was cancelled before is passed over, and the
last of the queue takes its place. -/
def below (f : TokenForest) : Nat → List TokenId → List TokenId
  | 0, _ => []
  | _, [] => []
  | fuel + 1, id :: queue =>
    if f.isCancelled id then f.below fuel queue.rotateRight
    else
      let joining := (f.children id).reverse.filter fun c => !f.isCancelled c
      id :: f.below fuel (queue ++ joining)

/-- Everything that cancelling a token cancels. Its children queue up behind it; as the
token itself comes at the very end, the last of them takes its place in front. -/
def affected (f : TokenForest) (id : TokenId) : List TokenId :=
  if f.isCancelled id then []
  else
    -- A token hangs from at most one other, so the queue never holds one twice.
    f.below (f.tokens.length + 1) (f.children id).rotateRight ++ [id]

/-- A list without the given element, whose place the last element takes. -/
def removeSwapping (ids : List TokenId) (id : TokenId) : List TokenId :=
  match ids.getLast? with
  | none => []
  | some last =>
    if last = id then ids.dropLast
    else ids.dropLast.map fun i => if i = id then last else i

/-- Takes a token away from the one it hangs from. -/
def detach (f : TokenForest) (id : TokenId) : TokenForest :=
  match f.tokens[id]?.bind (·.parent) with
  | none => f
  | some parent =>
    (f.modify id fun t => { t with parent := none }).modify parent fun p =>
      { p with children := removeSwapping p.children id }

/-- Cancels a token and everything below it, and returns these tokens in the
order in which their watchers are told. -/
def cancel (f : TokenForest) (id : TokenId) : TokenForest × List TokenId :=
  let order := f.affected id
  let mark (f : TokenForest) (i : TokenId) : TokenForest :=
    f.modify i fun t =>
      { t with cancelled := true, children := [], parent := if i = id then t.parent else none }
  (order.foldl mark f, order)

/-- One holder fewer. A token without holders leaves its place in the forest. -/
def drop (f : TokenForest) (id : TokenId) : TokenForest :=
  match f.tokens[id]? with
  | none => f
  | some t =>
    let f := f.modify id fun t => { t with holders := t.holders - 1 }
    -- Somebody else may still hold it.
    if 1 < t.holders then f else f.detach id

end TokenForest

end Safeguard
