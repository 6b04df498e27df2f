/-!
# Usage

What the command line prints about itself.
-/

namespace ComponentPreview.Usage

def version : String := "0.1.0"

def versionLine : String :=
  "preview-cli " ++ version ++ "\n"

def help : String :=
  "\nLive Preview CLI v" ++ version ++ "\n\n" ++
  "Usage:\n" ++
  "  preview [options] <command> FILE\n\n" ++
  "Commands:\n" ++
  "  watch FILE        Preview FILE and re-render on every save\n" ++
  "  render FILE       Build one preview, wait for the sandbox verdict, exit\n\n" ++
  "Options:\n" ++
  "  --api-url URL     Override API endpoint (default: http://localhost:8000)\n" ++
  "  --session ID      Reuse a preview session (default: new session)\n" ++
  "  --no-browser      Do not open the host page\n" ++
  "  --debug           Show the debug overlay in the preview\n" ++
  "  --performance     Show the render time monitor\n" ++
  "  --accessibility   Show the accessibility checker\n" ++
  "  --info            Show the component info header\n" ++
  "  -h, --help        Show this help\n" ++
  "  -v, --version     Show version\n\n" ++
  "Environment:\n" ++
  "  PREVIEW_API_URL             Override API endpoint (same as --api-url)\n" ++
  "  PREVIEW_DEBOUNCE_MS         Quiet period after a save before re-rendering\n" ++
  "  PREVIEW_MAX_RENDER_TIME_MS  Render without Ready/Error for this long is an error\n\n" ++
  "Watch Commands (type and press Enter):\n" ++
  "  r                 Refresh now\n" ++
  "  f                 Open fullscreen\n" ++
  "  q                 Quit\n\n"

end ComponentPreview.Usage
