import PlainSteps.Browser.Script

/-! # Scripted pages

A host that plays pages from a description: elements that appear after some time, that answer clicks
with another page, and that fail where the description says so. It keeps a record of every call.
-/

namespace PlainSteps

/-- The faults of a page or an element, by the call they happen in. -/
abbrev Faults := List (Text × Fault)

/-- An element of a page. -/
inductive Element where
  | mk (css role : Option Text) (name : Text) (label placeholder : Option Text) (text : Text)
    (after : Int) (echo : Bool) (url : Option Text)
      (elements : Option (List Element)) (faults : Faults)

namespace Element

/-- The selector that finds the element. -/
def css : Element → Option Text
  | mk css .. => css

/-- The role. -/
def role : Element → Option Text
  | mk _ role .. => role

/-- The accessible name. -/
def name : Element → Text
  | mk _ _ name .. => name

/-- The label. -/
def label : Element → Option Text
  | mk _ _ _ label .. => label

/-- The placeholder. -/
def placeholder : Element → Option Text
  | mk _ _ _ _ placeholder .. => placeholder

/-- The visible text. -/
def text : Element → Text
  | mk _ _ _ _ _ text .. => text

/-- The time at which the element becomes visible. -/
def after : Element → Int
  | mk _ _ _ _ _ _ after .. => after

/-- Whether a value typed into the element becomes its text. -/
def echo : Element → Bool
  | mk _ _ _ _ _ _ _ echo .. => echo

/-- The address a click leads to. -/
def url : Element → Option Text
  | mk _ _ _ _ _ _ _ _ url .. => url

/-- The elements of the page after a click. -/
def elements : Element → Option (List Element)
  | mk _ _ _ _ _ _ _ _ _ elements _ => elements

/-- The faults. -/
def faults : Element → Faults
  | mk _ _ _ _ _ _ _ _ _ _ faults => faults

/-- The element with another text. -/
def withText (t : Text) : Element → Element
  | mk css role name label placeholder _ after echo url elements faults =>
    mk css role name label placeholder t after echo url elements faults

end Element

/-- A page, and what its browser does when it is opened. -/
structure Page where
  url : Option Text := some "about:blank"
  elements : List Element := []
  faults : Faults := []
  routes : List (Text × List Element) := []
  launchFault : Option Fault := none
  pageFault : Option Fault := none

/-- What was called, with its arguments. -/
abbrev Call := List Json

namespace Page

/-- Whether a written pattern, in any case, is found in a text. -/
def found (pattern t : Text) : Bool :=
  match Pattern.read pattern with
  | .ok r => r.occursIn t
  | .error _ => false

/-- Whether a query finds an element. -/
def finds (q : Query) (e : Element) : Bool :=
  match q with
  | .selector css => e.css == some css
  | .role role name => e.role == some role && found name e.name
  | .label p => e.label.any (found p)
  | .placeholder p => e.placeholder.any (found p)
  | .text p => !e.text.isEmpty && found p e.text

/-- A query as calls name it. -/
def describe : Query → Text
  | .selector css => "css=".toList ++ css
  | .role role _ => "role=".toList ++ role
  | .label _ => "label"
  | .placeholder _ => "placeholder"
  | .text _ => "text"

/-- The first element a query finds. -/
def first? (p : Page) (q : Query) : Option Element := p.elements.find? (finds q)

/-- The elements with the first one that a query finds changed. -/
def changeFirst (q : Query) (f : Element → Element) : List Element → List Element
  | [] => []
  | e :: rest => if finds q e then f e :: rest else e :: changeFirst q f rest

/-- The page after a click on an element. -/
def clicked (p : Page) (e : Element) : Page :=
  { p with url := match e.url with | some u => some u | none => p.url
           elements := e.elements.getD p.elements }

/-- The page after going to an address. -/
def visited (p : Page) (url : Option Text) : Page :=
  { p with url := url
           elements := (url.bind fun u => Json.lookup? u p.routes).getD p.elements }

end Page

/-- The state of the host: its clock, the calls made, the open page, the pages of browsers, and
files. -/
structure Stage where
  clock : Int := 0
  /-- The calls, the latest first. -/
  calls : List Call := []
  page : Page := {}
  /-- The page of each browser, by its channel or else its engine. -/
  sessions : List (Text × Page) := []
  files : Files := .ofEntries []

namespace Stage

/-- The state with a call recorded. -/
def called (s : Stage) (call : Call) : Stage := { s with calls := call :: s.calls }

/-- Fails with a fault, if there is one, or else goes on. -/
def orFault {α : Type} (f : Option Fault) (s : Stage) (next : Stage → Except Fault α × Stage) :
    Except Fault α × Stage :=
  match f with
  | some f => (.error f, s)
  | none => next s

/-- The message of a wait that takes too long. -/
def exceeded (timeout : Int) (what : Text) : Fault :=
  .timeout ("Timeout ".toList ++ Text.ofInt timeout ++ "ms exceeded waiting for " ++ what)

/-- Waits in vain. -/
def waitInVain {α : Type} (s : Stage) (timeout : Int) (what : Text) : Except Fault α × Stage :=
  (.error (exceeded timeout what), { s with clock := s.clock + timeout })

/-- Waits for the first element of a query. -/
def awaitVisible (q : Query) (timeout : Int) (s : Stage) : Except Fault Unit × Stage :=
  let s := s.called [.str "wait_for".toList, .str (Page.describe q), .int timeout]
  match s.page.first? q with
  | none => s.waitInVain timeout (Page.describe q)
  | some e =>
    orFault (Json.lookup? "wait_for" e.faults) s fun s =>
      if s.clock + timeout < e.after then s.waitInVain timeout (Page.describe q)
      else (.ok (), { s with clock := max s.clock e.after })

/-- Waits for an address. -/
def awaitUrl (pattern : Text) (timeout : Int) (s : Stage) : Except Fault Unit × Stage :=
  let s := s.called [.str "wait_for_url".toList, .str pattern, .int timeout]
  match s.page.url with
  | none => (.error (.other "expected string or bytes-like object, got 'NoneType'"), s)
  | some url => if Page.found pattern url then (.ok (), s) else s.waitInVain timeout pattern

/-- Types into the first element of a query. -/
def fill (q : Query) (value : Text) (s : Stage) : Except Fault Unit × Stage :=
  let s := s.called [.str "fill".toList, .str (Page.describe q), .str value]
  match s.page.first? q with
  | none => (.ok (), s)
  | some e =>
    orFault (Json.lookup? "fill" e.faults) s fun s =>
      if e.echo then
        (.ok (), { s with page := { s.page with
          elements := Page.changeFirst q (Element.withText value) s.page.elements } })
      else (.ok (), s)

/-- Clicks the first element of a query. -/
def click (q : Query) (s : Stage) : Except Fault Unit × Stage :=
  let s := s.called [.str "click".toList, .str (Page.describe q)]
  match s.page.first? q with
  | none => (.ok (), s)
  | some e => orFault (Json.lookup? "click" e.faults) s fun s =>
    (.ok (), { s with page := s.page.clicked e })

/-- The text of the first element of a query. -/
def innerText (q : Query) (s : Stage) : Except Fault Text × Stage :=
  let s := s.called [.str "inner_text".toList, .str (Page.describe q)]
  match s.page.first? q with
  | none => (.ok [], s)
  | some e => orFault (Json.lookup? "inner_text" e.faults) s fun s => (.ok e.text, s)

/-- Answers a request. -/
def answer (q : Request) (s : Stage) : Except Fault q.Reply × Stage :=
  match q with
  | .goto url =>
    let s := s.called [.str "goto".toList, Json.optStr url]
    orFault (Json.lookup? "goto" s.page.faults) s fun s =>
      (.ok (), { s with page := s.page.visited url })
  | .pause ms =>
    let s := s.called [.str "wait".toList, .int ms]
    orFault (Json.lookup? "wait" s.page.faults) s fun s =>
      (.ok (), { s with clock := s.clock + ms })
  | .awaitUrl pattern timeout => s.awaitUrl pattern timeout
  | .awaitVisible q timeout => s.awaitVisible q timeout
  | .fill q value => s.fill q value
  | .click q => s.click q
  | .innerText q => s.innerText q
  | .screenshot path =>
    let s := s.called [.str "screenshot".toList, .str path]
    orFault (Json.lookup? "screenshot" s.page.faults) s fun s => (.ok (), s)
  | .makeDirectory path =>
    match s.files.ensureDirectory path with
    | .ok files => (.ok (), { s with files })
    | .error e => (.error (.file e), s)
  | .writeText path text =>
    match s.files.writeText path text with
    | .ok files => (.ok (), { s with files })
    | .error e => (.error (.file e), s)
  | .launch engine headless channel =>
    let s := s.called [.str "launch".toList, .str engine, .bool headless, Json.optStr channel]
    let page := (Json.lookup? (channel.getD engine) s.sessions).getD {}
    orFault page.launchFault s fun s => (.ok (), { s with page })
  | .newPage =>
    let s := s.called [.str "new_page".toList]
    orFault s.page.pageFault s fun s => (.ok (), s)
  | .close => (.ok (), s.called [.str "close".toList])

/-- The host that plays scripted pages. -/
def host : Host Stage := ⟨Stage.clock, Stage.answer⟩

end Stage

end PlainSteps
