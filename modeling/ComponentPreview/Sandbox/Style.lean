/-!
# Style of a preview
-/

namespace ComponentPreview.Sandbox

def styleLines : List String := [
  "",
  "*, *::before, *::after \x7b box-sizing: border-box; \x7d",
  "",
  "body \x7b",
  "  margin: 0;",
  "  font-family: -apple-system, BlinkMacSystemFont, 'Segoe UI', Roboto, sans-serif;",
  "  background: #ffffff;",
  "  color: #111827;",
  "\x7d",
  "",
  ".preview-container \x7b min-height: 100vh; padding: 20px; \x7d",
  "",
  "/* ── Placeholders ── */",
  ".preview-stub \x7b",
  "  border: 2px dashed #3b82f6;",
  "  border-radius: 8px;",
  "  background: #eff6ff;",
  "  color: #1e3a8a;",
  "  padding: 16px;",
  "  margin: 8px 0;",
  "\x7d",
  ".preview-stub-title \x7b font-weight: 600; margin-bottom: 4px; \x7d",
  ".preview-stub-note \x7b font-size: 12px; color: #3b82f6; \x7d",
  ".preview-stub-children \x7b margin-top: 8px; \x7d",
  "",
  "/* ── Errors ── */",
  ".error-boundary \x7b",
  "  background: #fef2f2;",
  "  border: 1px solid #fecaca;",
  "  border-radius: 8px;",
  "  padding: 16px;",
  "  margin: 16px 0;",
  "  font-family: 'Monaco', 'Menlo', monospace;",
  "\x7d",
  ".error-title \x7b color: #dc2626; font-weight: 600; margin-bottom: 8px; \x7d",
  ".error-message \x7b color: #991b1b; margin-bottom: 12px; line-height: 1.5; white-space: pre-wrap; \x7d",
  ".error-location \x7b color: #7f1d1d; font-size: 12px; margin-bottom: 12px; \x7d",
  ".error-stack \x7b",
  "  background: #7f1d1d;",
  "  color: #fecaca;",
  "  padding: 12px;",
  "  border-radius: 6px;",
  "  font-size: 12px;",
  "  overflow: auto;",
  "  max-height: 200px;",
  "\x7d",
  ".retry-button \x7b",
  "  background: #dc2626;",
  "  color: #ffffff;",
  "  border: none;",
  "  border-radius: 6px;",
  "  padding: 6px 12px;",
  "  cursor: pointer;",
  "\x7d",
  ".retry-button:disabled \x7b background: #9ca3af; cursor: not-allowed; \x7d",
  "",
  "/* ── Component info ── */",
  ".component-info \x7b",
  "  border: 1px solid #e5e7eb;",
  "  border-radius: 8px;",
  "  padding: 12px;",
  "  margin-bottom: 16px;",
  "  font-size: 14px;",
  "\x7d",
  ".component-info h3 \x7b margin: 0 0 8px 0; color: #374151; font-size: 16px; \x7d",
  ".info-grid \x7b display: grid; grid-template-columns: repeat(auto-fit, minmax(160px, 1fr)); gap: 8px; \x7d",
  ".info-item \x7b display: flex; justify-content: space-between; padding: 4px 0; \x7d",
  ".info-label \x7b color: #6b7280; font-weight: 500; \x7d",
  ".info-value \x7b color: #374151; font-weight: 600; \x7d",
  "",
  "/* ── Overlays ── */",
  ".debug-panel \x7b",
  "  position: fixed;",
  "  top: 10px;",
  "  right: 10px;",
  "  background: rgba(0, 0, 0, 0.8);",
  "  color: #ffffff;",
  "  padding: 10px;",
  "  border-radius: 8px;",
  "  font-size: 12px;",
  "  max-width: 300px;",
  "  z-index: 1000;",
  "\x7d",
  ".debug-panel h4 \x7b margin: 0 0 8px 0; color: #60a5fa; \x7d",
  ".debug-panel .metric \x7b margin: 4px 0; display: flex; justify-content: space-between; gap: 12px; \x7d",
  ".debug-panel .metric .value \x7b color: #34d399; \x7d",
  "",
  ".performance-monitor \x7b",
  "  position: fixed;",
  "  bottom: 10px;",
  "  left: 10px;",
  "  background: rgba(59, 130, 246, 0.9);",
  "  color: #ffffff;",
  "  padding: 8px 12px;",
  "  border-radius: 6px;",
  "  font-size: 11px;",
  "  z-index: 1000;",
  "\x7d",
  "",
  ".accessibility-checker \x7b",
  "  position: fixed;",
  "  bottom: 10px;",
  "  right: 10px;",
  "  background: rgba(16, 185, 129, 0.9);",
  "  color: #ffffff;",
  "  padding: 8px 12px;",
  "  border-radius: 6px;",
  "  font-size: 11px;",
  "  z-index: 1000;",
  "  max-width: 320px;",
  "\x7d",
  ".accessibility-checker summary \x7b cursor: pointer; \x7d",
  ".accessibility-checker ul \x7b margin: 6px 0 0 0; padding-left: 16px; \x7d",
  ""
]

/-- The style sheet of every preview document. -/
def style : String :=
  "\n".intercalate styleLines

end ComponentPreview.Sandbox
