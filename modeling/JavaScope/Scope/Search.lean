import JavaScope.Binding.Request
import JavaScope.Environment.Resolve

/-!
# Searches

A search offers candidates to a request and stops as soon as the request asks for it. Its actions
answer whether the request stopped; on the way they may make types in the environment.
-/

namespace JavaScope

/-- The environment and the request of a search. -/
structure Searching (σ : Type) where
  environment : Environment
  request : σ

/-- An action of a search, which outlives a fault. -/
abbrev SearchM (σ : Type) := ExceptT Fault (StateM (Searching σ))

namespace SearchM

/-- An action on the environment, as an action of a search. -/
def lift {σ α : Type} (action : EnvironmentM α) : SearchM σ α :=
  ExceptT.mk fun st =>
    let (answer, environment) := action.run.run st.environment
    (answer, { st with environment := environment })

/-- A reading of the environment. -/
def read {σ α : Type} (f : Environment → α) : SearchM σ α := do
  return f (← get).environment

/-- Offers a candidate; answers whether the request stops. -/
def offer {σ : Type} [Request σ] (candidate : Option BindingId) : SearchM σ Bool :=
  ExceptT.mk fun st =>
    let (answer, request) := (Request.accept st.environment.store candidate).run.run st.request
    (answer, { st with request := request })

/-- Offers bindings until the request stops. -/
def offerAll {σ : Type} [Request σ] (bindings : List BindingId) : SearchM σ Bool :=
  bindings.anyM fun b => offer (some b)

/-- A search for a request, as an action on the environment that also answers with the request. -/
def start {σ α : Type} (request : σ) (search : SearchM σ α) : EnvironmentM (α × σ) :=
  ExceptT.mk fun e =>
    let (answer, st) := search.run.run ⟨e, request⟩
    (answer.map fun a => (a, st.request), st.environment)

end SearchM

/-- How the static type of an expression is told. -/
abbrev Typing := Node → EnvironmentM (Option TypeId)

end JavaScope
