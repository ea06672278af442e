import Pine.Ledger.Integrity

/-!
# Strategy snapshots

What the ledger reads from a validated snapshot, and the document that it dumps to.
-/

namespace Pine

/-- A validated `StrategySnapshot`: the fields that the ledger compares, and its
`model_dump(mode="json")`. -/
structure StrategySnapshot where
  strategy_id : Text
  git_commit : Text
  data_as_of_version : DateTime
  dataset_version : Text
  in_sample_window : DateWindow
  out_of_sample_window : DateWindow
  metric_definition_version : Text
  modelDump : JsonObject

/-- `^sha256:[0-9a-f]{64}$` -/
abbrev Sha256Text := {s : Text // isSha256Text s = true}

end Pine
