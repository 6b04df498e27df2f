import ComponentPreview.Preview
import ComponentPreview.Terminal.Basic

/-!
# A service without a network

Requests are answered at once by building the preview in the program itself.
-/

namespace ComponentPreview.Service

/-- The reply that a service gives to a call, with a registry of its own for each. -/
def replyTo (config : Config) (now : Int) (call : PreviewCall) : HttpReply :=
  let answer := Preview.build { config, now }
    { code := call.code.toList, options := .obj call.options, session := some call.session,
      version := call.version, collaboration := call.collaboration }
  ⟨answer.status, Utf8.encode (answer.body.print true).toList⟩

def inProcess (config : Config) : Service := fun now call =>
  { delay := 0, delivery := .ok (replyTo config now call) }

end ComponentPreview.Service
