import Scribe.Proofs.ContextOperations

/-! Visitors as finite programs over a context. A visitor asks the services for something, visits
further nodes, makes generic instances, and catches what a part of it ended with; what it does next may
depend on every answer. -/

namespace Scribe

/-- A single request to a service of the context, with the type of its answer. -/
inductive Request : Type → Type where
  | write (statement : String) : Request Unit
  | writeAll (statements : List String) : Request Unit
  | synthesize (hint : String) (kind : ElementKind) : Request SyntheticName
  | cloneReference (source : Handle) (overrides : Overrides) (method : MethodSymbol) :
      Request ClonedReference

/-- A visitor that ends with a value, a failure or an abort. `settle` catches every exit of its part,
so a handler for failures alone is one that aborts again where it finds an abort. -/
inductive Visitor (ε : Type) : Type → Type 1 where
  | finish {α : Type} (value : α) : Visitor ε α
  | fail {α : Type} (cause : ε) : Visitor ε α
  | abort {α : Type} (message : String) : Visitor ε α
  | ask {α β : Type} (request : Request β) (next : β → Visitor ε α) : Visitor ε α
  | instantiate {α : Type} (key : InstantiationKey) (make : Visitor ε Handle)
      (next : Handle → Visitor ε α) : Visitor ε α
  | visit {α β : Type} (node : Node) (body : Visitor ε β) (next : β → Visitor ε α) : Visitor ε α
  | settle {α β : Type} (body : Visitor ε β) (next : Except (Stop ε) β → Visitor ε α) : Visitor ε α

/-- A visit to a node: the contexts right before its scope was opened and right before it was closed. -/
structure Visit where
  node : Node
  entry : Context
  exit : Context

variable {ε α β : Type}

def Request.perform (raise : Unregistered → ε) : Request α → Action ε Context α
  | .write statement => Context.write Lens.self raise statement
  | .writeAll statements => Context.writeAll Lens.self raise statements
  | .synthesize hint kind => Context.synthesize Lens.self raise hint kind
  | .cloneReference source overrides method =>
    Context.cloneReference Lens.self raise source overrides method

/-- The visits of what follows an operation; nothing follows one that fails or aborts. -/
def following (operation : Action ε Context β) (next : β → Context → List Visit) (context : Context) :
    List Visit :=
  match operation context with
  | .ok value after => next value after
  | .error _ _ => []

/-- An instance has to be made: there is a memo, and it holds none. -/
def Context.makes (key : InstantiationKey) (context : Context) : Bool :=
  (context.services.get? .instances).any fun memo => !memo.contains key

namespace Visitor

def run (raise : Unregistered → ε) : {α : Type} → Visitor ε α → Action ε Context α
  | _, .finish value => pure value
  | _, .fail cause => Action.fail cause
  | _, .abort message => Action.abort message
  | _, .ask request next => do
    let answer ← request.perform raise
    (next answer).run raise
  | _, .instantiate key make next => do
    let handle ← Context.getOrMakeInstance Lens.self raise key (make.run raise)
    (next handle).run raise
  | _, .visit node body next => do
    let value ← Context.withMapping Lens.self raise node (body.run raise)
    (next value).run raise
  | _, .settle body next => do
    let result ← Action.settle (body.run raise)
    (next result).run raise

/-- The visits of a run in the order in which the nodes were entered. Without a tracker and a writer no
node is. -/
def visits (raise : Unregistered → ε) : {α : Type} → Visitor ε α → Context → List Visit
  | _, .finish _, _ => []
  | _, .fail _, _ => []
  | _, .abort _, _ => []
  | _, .ask request next, context =>
    following (request.perform raise) (fun answer => (next answer).visits raise) context
  | _, .instantiate key make next, context =>
    (if context.makes key then make.visits raise (context.modifyService .instances Memo.countMiss)
      else []) ++
    following (Context.getOrMakeInstance Lens.self raise key (make.run raise))
      (fun handle => (next handle).visits raise) context
  | _, .visit node body next, context =>
    (match context.services.get? .tracker, context.services.get? .writer with
      | some tracker, some writer =>
        let inside := context.enter node tracker writer
        ⟨node, context, stateAfter (body.run raise) inside⟩ :: body.visits raise inside
      | _, _ => []) ++
    following (Context.withMapping Lens.self raise node (body.run raise))
      (fun value => (next value).visits raise) context
  | _, .settle body next, context =>
    body.visits raise context ++
    following (Action.settle (body.run raise)) (fun result => (next result).visits raise) context

end Visitor

end Scribe
