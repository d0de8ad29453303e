import PlainSteps.Config.Basic
import PlainSteps.Schema

/-! # Configurations as JSON

The names of a configuration's fields, how each is read, and the record with all its fields that is
written.
-/

namespace PlainSteps

open Schema

/-- Reads a strategy. -/
def Strategy.ofJson : Json → Checked Strategy :=
  record "LocatorStrategy" fun ms =>
    Strategy.mk <$> field "kind" (oneOf (StrategyKind.all.map fun k => (k.word, k))) ms
      <*> field "pattern" text ms
      <*> fieldOr "role" none (optional text) ms

/-- Reads credentials. -/
def Credentials.ofJson : Json → Checked Credentials :=
  record "Credentials" fun ms =>
    Credentials.mk <$> fieldOr "username" [] text ms <*> fieldOr "password" [] text ms

/-- Reads a keyword rule. -/
def KeywordRule.ofJson : Json → Checked KeywordRule :=
  record "KeywordRule" fun ms =>
    KeywordRule.mk <$> field "keywords" (tuple text) ms
      <*> field "element" text ms
      <*> fieldOr "condition" "visible" text ms
      <*> fieldOr "description" [] text ms

/-- Reads a configuration. -/
def Config.ofJson : Json → Checked Config :=
  record "AppConfig" fun ms =>
    Config.mk <$> field "name" text ms
      <*> fieldOr "version" "1.0" text ms
      <*> fieldOr "description" [] text ms
      <*> field "base_url" text ms
      <*> fieldOr "default_credentials" {} Credentials.ofJson ms
      <*> fieldOr "elements" [] (dictionary (tuple Strategy.ofJson)) ms
      <*> fieldOr "form_fields" [] (dictionary text) ms
      <*> fieldOr "click_targets" [] (tuple KeywordRule.ofJson) ms
      <*> fieldOr "verification_targets" [] (tuple KeywordRule.ofJson) ms
      <*> fieldOr "navigation_elements" [] (tuple text) ms
      <*> fieldOr "data_dir" "test-data" text ms
      <*> fieldOr "browsers" ["chromium"] (tuple text) ms
      <*> fieldOr "headless" true switch ms
      <*> fieldOr "strategy_timeout_ms" 2000 whole ms

/-- A strategy as a record. -/
def Strategy.toJson (s : Strategy) : Json :=
  Json.record [("kind", .str s.kind.word), ("pattern", .str s.pattern),
    ("role", Json.optStr s.role)]

/-- Credentials as a record. -/
def Credentials.toJson (c : Credentials) : Json :=
  Json.record [("username", .str c.username), ("password", .str c.password)]

/-- A keyword rule as a record. -/
def KeywordRule.toJson (r : KeywordRule) : Json :=
  Json.record [("keywords", Json.strs r.keywords), ("element", .str r.element),
    ("condition", .str r.condition), ("description", .str r.description)]

/-- A configuration as a record of all its fields. -/
def Config.toJson (c : Config) : Json :=
  Json.record
    [("name", .str c.name), ("version", .str c.version), ("description", .str c.description),
     ("base_url", .str c.baseUrl), ("default_credentials", c.credentials.toJson),
     ("elements", .obj (c.elements.map fun (name, ss) => (name, .arr (ss.map Strategy.toJson)))),
     ("form_fields", .obj (c.formFields.map fun (label, element) => (label, .str element))),
     ("click_targets", .arr (c.clickTargets.map KeywordRule.toJson)),
     ("verification_targets", .arr (c.verificationTargets.map KeywordRule.toJson)),
     ("navigation_elements", Json.strs c.navigationElements), ("data_dir", .str c.dataDir),
     ("browsers", Json.strs c.browsers), ("headless", .bool c.headless),
     ("strategy_timeout_ms", .int c.strategyTimeout)]

/-- A record with some of its members replaced or added. -/
def Json.overlay (base changes : Json) : Json :=
  match base, changes with
  | .obj ms, .obj news => .obj (news.foldl (fun acc m => Json.put m.1 m.2 acc) ms)
  | base, _ => base

end PlainSteps
