import PlainSteps.Config.Record

/-! # The configuration that comes with the library

The application that is tested when no other is named: an open-source personnel administration.
-/

namespace PlainSteps

/-- A strategy by an attribute selector. -/
def bySelector (pattern : String) : Strategy := ⟨.selector, pattern, none⟩

/-- A strategy by role and accessible name. -/
def byRole (role pattern : String) : Strategy := ⟨.role, pattern, some role⟩

/-- A strategy of another kind by its pattern. -/
def byPattern (kind : StrategyKind) (pattern : String) : Strategy := ⟨kind, pattern, none⟩

/-- The keywords that name an element. -/
def naming (keywords : List String) (element : String) : KeywordRule :=
  ⟨keywords.map String.toList, element, "visible", []⟩

/-- The keywords that ask for a check of an element. -/
def checking (keywords : List String) (element condition description : String) : KeywordRule :=
  ⟨keywords.map String.toList, element, condition, description⟩

namespace Config.Shipped

/-- How each element is found. -/
def elements : List (Text × List Strategy) :=
  [("username input field",
     [bySelector "input[name=\"username\"]",
      byPattern .placeholder "username",
      byRole "textbox" "username",
      byPattern .label "username"]),
   ("password input field",
     [bySelector "input[name=\"password\"]",
      bySelector "input[type=\"password\"]",
      byPattern .placeholder "password",
      byPattern .label "password"]),
   ("login button",
     [bySelector "button[type=\"submit\"]",
      byRole "button" "login|sign in",
      byPattern .text "^login$"]),
   ("error message",
     [bySelector ".oxd-alert-content-text",
      byRole "alert" ".*",
      byPattern .text "invalid credentials"]),
   ("dashboard page",
     [byPattern .url "/dashboard",
      byRole "heading" "dashboard"]),
   ("PIM navigation link",
     [byRole "link" "^pim$",
      bySelector "a[href*=\"viewPimModule\"]",
      byPattern .text "^pim$"]),
   ("Admin navigation link",
     [byRole "link" "^admin$",
      bySelector "a[href*=\"viewAdminModule\"]"]),
   ("Add Employee button",
     [byRole "button" "add",
      byPattern .text "add employee"]),
   ("first name input field",
     [bySelector "input[name=\"firstName\"]",
      byPattern .placeholder "first name"]),
   ("middle name input field",
     [bySelector "input[name=\"middleName\"]",
      byPattern .placeholder "middle name"]),
   ("last name input field",
     [bySelector "input[name=\"lastName\"]",
      byPattern .placeholder "last name"]),
   ("email input field",
     [bySelector "input[type=\"email\"]",
      byPattern .label "email"]),
   ("save button",
     [bySelector "button[type=\"submit\"]",
      byRole "button" "save"]),
   ("cancel button",
     [byRole "button" "cancel"]),
   ("employee profile page",
     [byPattern .url "/pim/viewPersonalDetails",
      byRole "heading" "personal details"]),
   ("success message",
     [bySelector ".oxd-toast--success",
      byPattern .text "successfully"]),
   ("user dropdown menu",
     [bySelector ".oxd-userdropdown-tab",
      bySelector "img[alt*=\"profile\"]"]),
   ("logout button",
     [byRole "menuitem" "logout",
      bySelector "a[href*=\"logout\"]",
      byPattern .text "^logout$"]),
   ("login page",
     [byPattern .url "/auth/login",
      byRole "heading" "login"]),
   ("page content",
     [bySelector "body"])]

/-- The element behind each label of a form. -/
def formFields : List (Text × Text) :=
  [("first name", "first name input field"),
   ("middle name", "middle name input field"),
   ("last name", "last name input field"),
   ("email", "email input field"),
   ("username", "username input field"),
   ("password", "password input field")]

/-- What a click means, by its words. -/
def clickTargets : List KeywordRule :=
  [naming ["pim"] "PIM navigation link",
   naming ["admin"] "Admin navigation link",
   naming ["add"] "Add Employee button",
   naming ["save"] "save button",
   naming ["cancel"] "cancel button",
   naming ["login"] "login button",
   naming ["sign in"] "login button",
   naming ["user", "icon"] "user dropdown menu",
   naming ["user", "dropdown"] "user dropdown menu",
   naming ["user", "menu"] "user dropdown menu",
   naming ["logout"] "logout button",
   naming ["log out"] "logout button"]

/-- What a check looks at, by its words. -/
def verificationTargets : List KeywordRule :=
  [checking ["dashboard"] "dashboard page" "visible"
      "dashboard is displayed",
   checking ["employee", "profile"] "employee profile page" "visible"
      "employee profile page is displayed",
   checking ["invalid", "credentials"] "error message" "contains:Invalid credentials"
      "invalid credentials error is shown",
   checking ["error"] "error message" "visible"
      "error message is shown",
   checking ["success"] "success message" "visible"
      "success message is shown",
   checking ["login", "page"] "login page" "visible"
      "login page is displayed"]

end Config.Shipped

/-- The configuration that comes with the library. -/
def Config.shipped : Config where
  name := "OrangeHRM"
  version := "5.7"
  description := "OrangeHRM open-source demo instance"
  baseUrl := "https://opensource-demo.orangehrmlive.com/web/index.php/auth/login"
  credentials := ⟨"Admin", "admin123"⟩
  elements := Config.Shipped.elements
  formFields := Config.Shipped.formFields
  clickTargets := Config.Shipped.clickTargets
  verificationTargets := Config.Shipped.verificationTargets
  navigationElements := ["PIM navigation link", "Add Employee button", "save button"]
  dataDir := "test-data"
  browsers := ["chromium", "firefox", "webkit"]
  headless := true
  strategyTimeout := 2000

end PlainSteps
