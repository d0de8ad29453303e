import PlainSteps.Browser.Page

/-! # Scripted pages as records

How a description of pages is written: every member may be left out, and one of another type counts
as left out.
-/

namespace PlainSteps

namespace Json

mutual

/-- How deep lists and objects are nested in a value. -/
def depth : Json → Nat
  | arr xs => depthOfItems xs + 1
  | obj ms => depthOfMembers ms + 1
  | _ => 0

/-- The greatest depth of items. -/
def depthOfItems : List Json → Nat
  | [] => 0
  | x :: xs => max (depth x) (depthOfItems xs)

/-- The greatest depth of members. -/
def depthOfMembers : List (Text × Json) → Nat
  | [] => 0
  | (_, x) :: ms => max (depth x) (depthOfMembers ms)

end

end Json

/-- Reads a fault. -/
def Fault.ofJson (x : Json) : Fault :=
  let message := (x.textAt? "message").getD []
  match x.textAt? "kind" with
  | some kind =>
    if kind == "timeout".toList then .timeout message
    else if kind == "browser".toList then .browser message
    else .other message
  | none => .other message

/-- Reads the faults of a page or an element. -/
def Faults.ofJson (x : Json) : Faults :=
  (x.membersAt "faults").map fun (call, fault) => (call, Fault.ofJson fault)

/-- Reads an element whose description is nested no deeper than the given depth. -/
def Element.ofJsonWithin : Nat → Json → Element
  | 0, _ => .mk none none [] none none [] 0 false none none []
  | depth + 1, x =>
    let onClick := (x.get? "on_click").getD .null
    .mk (x.textAt? "css") (x.textAt? "role") ((x.textAt? "name").getD []) (x.textAt? "label")
      (x.textAt? "placeholder")
      ((x.textAt? "text").getD []) ((x.intAt? "after").getD 0) (x.isTrueAt "echo")
        (onClick.textAt? "url")
      ((onClick.itemsAt? "elements").map fun es => es.map (ofJsonWithin depth)) (Faults.ofJson x)

/-- Reads an element. -/
def Element.ofJson (x : Json) : Element := ofJsonWithin (x.depth + 1) x

/-- Reads a page. -/
def Page.ofJson (x : Json) : Page where
  url := match x.get? "url" with
    | none => some "about:blank"
    | some _ => x.textAt? "url"
  elements := ((x.itemsAt? "elements").getD []).map Element.ofJson
  faults := Faults.ofJson x
  routes := (x.membersAt "routes").map fun (url, elements) =>
    match elements with
    | .arr es => (url, es.map Element.ofJson)
    | _ => (url, [])
  launchFault := (x.get? "launch_fault").map Fault.ofJson
  pageFault := (x.get? "page_fault").map Fault.ofJson

end PlainSteps
