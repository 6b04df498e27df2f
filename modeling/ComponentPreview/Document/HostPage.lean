import ComponentPreview.Document.Basic

/-!
# Host pages

The page that shows the latest document of a session in a sandboxed frame, passes on what the frame
reports and reloads when a newer version is there.
-/

namespace ComponentPreview.HostPage

/-- How often the page looks for a newer version. -/
def pollInterval : Nat := 1500

def styleLines : List String := [
  "<style>",
  "  html, body \x7b margin: 0; height: 100%; background: #f3f4f6; font-family: system-ui, sans-serif; \x7d",
  "  .toolbar \x7b display: flex; align-items: center; gap: 8px; padding: 6px 12px;",
  "             background: #111827; color: #e5e7eb; font-size: 13px; \x7d",
  "  .toolbar .status \x7b margin-left: auto; \x7d",
  "  .toolbar button \x7b background: #374151; color: inherit; border: 0; border-radius: 4px;",
  "                    padding: 4px 10px; cursor: pointer; \x7d",
  "  .status[data-state=\"ready\"] \x7b color: #34d399; \x7d",
  "  .status[data-state=\"errored\"] \x7b color: #f87171; \x7d",
  "  iframe \x7b display: block; width: 100%; height: calc(100% - 34px); border: 0; background: white; \x7d",
  "  body.fullscreen .toolbar \x7b display: none; \x7d",
  "  body.fullscreen iframe \x7b height: 100%; \x7d",
  "</style>"
]

def scriptLines : List String := [
  "  var frame = document.getElementById('preview');",
  "  var statusEl = document.getElementById('status');",
  "  var socket = null;",
  "  var pending = [];",
  "",
  "  if (location.hash === '#fullscreen') document.body.classList.add('fullscreen');",
  "",
  "  function setStatus(kind, text) \x7b",
  "    statusEl.dataset.state = kind;",
  "    statusEl.textContent = text;",
  "  \x7d",
  "",
  "  function send(payload) \x7b",
  "    var data = JSON.stringify(payload);",
  "    if (socket && socket.readyState === WebSocket.OPEN) socket.send(data);",
  "    else pending.push(data);",
  "  \x7d",
  "",
  "  try \x7b",
  "    var scheme = location.protocol === 'https:' ? 'wss://' : 'ws://';",
  "    socket = new WebSocket(scheme + location.host + '/ws/preview/' + encodeURIComponent(state.sessionId));",
  "    socket.onopen = function () \x7b",
  "      while (pending.length) socket.send(pending.shift());",
  "    \x7d;",
  "  \x7d catch (e) \x7b",
  "    socket = null;",
  "  \x7d",
  "",
  "  window.addEventListener('message', function (event) \x7b",
  "    if (event.source !== frame.contentWindow) return;",
  "    var data = event.data;",
  "    if (!data || (data.type !== 'Ready' && data.type !== 'Error')) return;",
  "    if (data.type === 'Ready') setStatus('ready', 'ready');",
  "    else setStatus('errored', (data.error && data.error.message) || 'error');",
  "    var payload = Object.assign(\x7b\x7d, data, \x7b sessionId: state.sessionId, version: state.version \x7d);",
  "    send(payload);",
  "  \x7d);",
  "",
  "  document.getElementById('fullscreen').addEventListener('click', function () \x7b",
  "    if (frame.requestFullscreen) frame.requestFullscreen();",
  "  \x7d);",
  "",
  "  setInterval(function () \x7b",
  "    fetch('/api/live-preview/' + encodeURIComponent(state.sessionId), \x7b cache: 'no-store' \x7d)",
  "      .then(function (res) \x7b return res.ok ? res.json() : null; \x7d)",
  "      .then(function (info) \x7b",
  "        if (info && info.version > state.version) location.reload();",
  "      \x7d)",
  "      .catch(function () \x7b\x7d);",
  "  \x7d, state.pollMs);",
  "\x7d)();",
  "</script>",
  "</body>",
  "</html>",
  ""
]

def state (session : String) (version : Int) : Json :=
  .obj [("sessionId", .str session), ("version", .int version), ("pollMs", .ofNat pollInterval)]

def render (session : String) (version : Int) (document : Document) : String :=
  let name := Markup.escapeAttribute document.componentName
  let title := Markup.escapeAttribute (document.componentName ++ " - Live Preview")
  "\n".intercalate ([
    "<!DOCTYPE html>",
    "<html lang=\"en\">",
    "<head>",
    "<meta charset=\"UTF-8\">",
    "<meta name=\"viewport\" content=\"width=device-width, initial-scale=1.0\">",
    "<title>" ++ title ++ "</title>"] ++
  styleLines ++ [
    "</head>",
    "<body>",
    "<div class=\"toolbar\">",
    "  <strong>" ++ name ++ "</strong><span>v" ++ toString version ++ "</span>",
    "  <button type=\"button\" id=\"fullscreen\">Fullscreen</button>",
    "  <span class=\"status\" id=\"status\" data-state=\"rendering\">rendering…</span>",
    "</div>",
    "<iframe id=\"preview\" title=\"" ++ name ++ " preview\" sandbox=\"" ++
      Markup.escapeAttribute Document.sandboxAttribute ++ "\" srcdoc=\"" ++
      Markup.escapeAttribute document.html ++ "\"></iframe>",
    "<script>",
    "(function () \x7b",
    "  var state = " ++ Markup.asciiScriptJson (state session version) ++ ";"] ++
  scriptLines)

end ComponentPreview.HostPage
