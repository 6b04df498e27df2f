import ComponentPreview.Client.Address

/-!
# Showing previews in a browser

The host page of a session is announced, and opened, once; it follows newer versions by itself.
-/

namespace ComponentPreview

structure Browser where
  apiUrl : String
  isUsed : Bool := true
  /-- The sessions whose page has been announced. -/
  announced : List String := []
  printed : String := ""
  opened : List String := []
  deriving DecidableEq, Repr

namespace Browser

/-- A browser for the pages of the service at an address. -/
def forService (url : String) (isUsed : Bool) : Browser :=
  { apiUrl := Address.withoutSlashes url, isUsed }

def pageUrl (browser : Browser) (session : String) : String :=
  browser.apiUrl ++ "/preview/" ++ session

def print (browser : Browser) (line : String) : Browser :=
  { browser with printed := browser.printed ++ line ++ "\n" }

def visit (browser : Browser) (url : String) : Browser :=
  if browser.isUsed then { browser with opened := browser.opened ++ [url] } else browser

def present (browser : Browser) (session : String) : Browser :=
  if browser.announced.contains session then browser
  else
    let url := browser.pageUrl session
    ({ browser with announced := browser.announced ++ [session] }.print
      ("  Preview: " ++ url)).visit url

def fullscreen (browser : Browser) (session : String) : Browser :=
  let url := browser.pageUrl session ++ "#fullscreen"
  (browser.print ("  Fullscreen: " ++ url)).visit url

def close (browser : Browser) : Browser :=
  { browser with announced := [] }

end Browser

end ComponentPreview
