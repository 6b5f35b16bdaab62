import SessionPool.Arguments

/-! What comes of an operation: the text of the server with its reading as JSON, and the outcome of a
    load that did not fail. -/

namespace SessionPool

/-- What came of a load. -/
inductive LoadOutcome where
  | loaded (message : String) (verified : Bool)
  | alreadyInitialized
  | emptyScenario
  | mismatch (expected saved : Json)

namespace LoadOutcome

/-- Whether the session is ready then. -/
def isReady : LoadOutcome → Bool
  | loaded _ _ => true
  | alreadyInitialized => true
  | emptyScenario => false
  | mismatch _ _ => false

def text : LoadOutcome → String
  | loaded message _ => message
  | alreadyInitialized => "This client is already initialized. Skipping..."
  | emptyScenario => "No scenario provided. Skipping..."
  | mismatch _ _ => "Load scenario failed. The loaded scenario mismatch with saved scenario."

/-- What comes of a load that was answered with `message` when the session then tells its state as
    `echo`. -/
def ofEcho (state : Json) (message echo : String) : LoadOutcome :=
  match Json.parse echo with
  | .ok v => if v.same state then loaded message true else mismatch state v
  | .error _ => mismatch state (.str echo)

def toJson : LoadOutcome → Json
  | loaded message verified =>
    .obj [("message", .str message), ("status", .str "loaded"), ("verified", .bool verified)]
  | alreadyInitialized => .obj [("status", .str "already_initialized")]
  | emptyScenario => .obj [("status", .str "empty_scenario")]
  | mismatch expected saved =>
    .obj [("expected", expected), ("saved", saved), ("status", .str "verification_mismatch")]

end LoadOutcome

/-- A state with nothing to load. -/
def isEmptyScenario : Json → Bool
  | .null => true
  | .obj [] => true
  | _ => false

/-- The text of a reply and its reading. -/
structure Normalized where
  raw : String
  value : Json

namespace Normalized

/-- A text that is no JSON stands for itself. -/
def ofText (raw : String) : Normalized :=
  ⟨raw, match Json.parse raw with
    | .ok v => v
    | .error _ => .str raw⟩

def ofOutcome (o : LoadOutcome) : Normalized := ⟨o.text, o.toJson⟩

end Normalized
end SessionPool
