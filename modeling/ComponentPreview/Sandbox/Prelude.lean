/-!
# Prelude of a preview

The script that compiles the submitted source inside the sandbox, runs it behind an error boundary
and reports what became of it.
-/

namespace ComponentPreview.Sandbox

def preludeLines : List String := [
  "",
  "var __PREVIEW__ = window.__PREVIEW_CONFIG__;",
  "var __trapped = \x7b\x7d;",
  "var __readySent = false;",
  "var __root = null;",
  "var __Boundary = null;",
  "",
  "function h() \x7b",
  "  return React.createElement.apply(React, arguments);",
  "\x7d",
  "",
  "function __post(message) \x7b",
  "  try \x7b",
  "    window.parent.postMessage(message, '*');",
  "  \x7d catch (err) \x7b",
  "    console.error('preview: postMessage failed', err);",
  "  \x7d",
  "\x7d",
  "",
  "function __errorPayload(error, extra) \x7b",
  "  var payload = \x7b message: String((error && error.message) || error || 'Unknown error') \x7d;",
  "  if (error && error.stack) payload.stack = String(error.stack);",
  "  if (extra) \x7b",
  "    Object.keys(extra).forEach(function (key) \x7b",
  "      if (extra[key] !== undefined && extra[key] !== null && extra[key] !== '') payload[key] = extra[key];",
  "    \x7d);",
  "  \x7d",
  "  return payload;",
  "\x7d",
  "",
  "function __postError(error, extra) \x7b",
  "  __post(\x7b type: 'Error', error: __errorPayload(error, extra) \x7d);",
  "\x7d",
  "",
  "// ── Placeholders ──",
  "",
  "window.__previewStub = function (name) \x7b",
  "  var Stub = function (props) \x7b",
  "    return h('div', \x7b",
  "        'data-preview-stub': name,",
  "        className: 'preview-stub',",
  "        role: 'note',",
  "        'aria-label': name + ' placeholder'",
  "      \x7d,",
  "      h('div', \x7b className: 'preview-stub-title' \x7d, '🔧 ' + name + ' Component'),",
  "      h('div', \x7b className: 'preview-stub-note' \x7d, name + ' is not available in the preview'),",
  "      props && props.children ? h('div', \x7b className: 'preview-stub-children' \x7d, props.children) : null",
  "    );",
  "  \x7d;",
  "  Stub.displayName = name;",
  "  Stub.__previewStub = true;",
  "  return Stub;",
  "\x7d;",
  "",
  "// ── Library bindings ──",
  "",
  "function __passThrough(props) \x7b",
  "  return props.children === undefined ? null : h(React.Fragment, null, props.children);",
  "\x7d",
  "",
  "function __routerLink(props) \x7b",
  "  var attrs = Object.assign(\x7b\x7d, props);",
  "  var to = attrs.to;",
  "  delete attrs.to;",
  "  delete attrs.end;",
  "  delete attrs.children;",
  "  attrs.href = typeof to === 'string' ? to : '#';",
  "  if (typeof attrs.className === 'function') attrs.className = attrs.className(\x7b isActive: false \x7d);",
  "  attrs.onClick = function (event) \x7b",
  "    event.preventDefault();",
  "    console.log('preview: navigate to', to);",
  "    if (props.onClick) props.onClick(event);",
  "  \x7d;",
  "  var children = typeof props.children === 'function' ? props.children(\x7b isActive: false \x7d) : props.children;",
  "  return h('a', attrs, children);",
  "\x7d",
  "",
  "var __previewLibraries = \x7b",
  "  'react-router-dom': \x7b",
  "    BrowserRouter: __passThrough,",
  "    MemoryRouter: __passThrough,",
  "    Routes: function (props) \x7b",
  "      var routes = React.Children.toArray(props.children);",
  "      var home = routes.filter(function (route) \x7b",
  "        return route.props && (route.props.index || route.props.path === '/');",
  "      \x7d)[0];",
  "      return home || routes[0] || null;",
  "    \x7d,",
  "    Route: function (props) \x7b",
  "      return props.element !== undefined ? props.element : __passThrough(props);",
  "    \x7d,",
  "    Link: __routerLink,",
  "    NavLink: __routerLink,",
  "    Outlet: function () \x7b return null; \x7d,",
  "    useNavigate: function () \x7b",
  "      return function (to) \x7b console.log('preview: navigate to', to); \x7d;",
  "    \x7d,",
  "    useParams: function () \x7b return \x7b\x7d; \x7d,",
  "    useLocation: function () \x7b",
  "      return \x7b pathname: '/', search: '', hash: '', state: null, key: 'default' \x7d;",
  "    \x7d,",
  "    useSearchParams: function () \x7b",
  "      return [new URLSearchParams(), function () \x7b\x7d];",
  "    \x7d",
  "  \x7d",
  "\x7d;",
  "",
  "// Without a name, the whole module object (namespace imports).",
  "window.__previewLibrary = function (module, name) \x7b",
  "  var library = __previewLibraries[module] || \x7b\x7d;",
  "  if (name === undefined) return library;",
  "  return library[name] !== undefined ? library[name] : window.__previewStub(name);",
  "\x7d;",
  "",
  "function __missingSymbol(error) \x7b",
  "  if (!error) return null;",
  "  var match = /([A-Za-z_$][\\w$]*) is not defined/.exec(String(error.message || error));",
  "  return match ? match[1] : null;",
  "\x7d",
  "",
  "// One stub and one retry per symbol.",
  "function __trapUnresolved(error) \x7b",
  "  var name = __missingSymbol(error);",
  "  if (!name || __trapped[name]) return false;",
  "  __trapped[name] = true;",
  "  window[name] = window.__previewStub(name);",
  "  console.warn('preview: stubbed unresolved symbol ' + name);",
  "  return true;",
  "\x7d",
  "",
  "// ── Entry points ──",
  "",
  "function __errorEntry(title, error, location) \x7b",
  "  var Display = function PreviewErrorDisplay() \x7b",
  "    return h('div', \x7b className: 'error-boundary', role: 'alert' \x7d,",
  "      h('div', \x7b className: 'error-title' \x7d, '⚠️ ' + title),",
  "      h('div', \x7b className: 'error-message' \x7d, String((error && error.message) || error)),",
  "      location ? h('div', \x7b className: 'error-location' \x7d, location) : null",
  "    );",
  "  \x7d;",
  "  Display.__previewFailed = true;",
  "  return Display;",
  "\x7d",
  "",
  "function __resolveEntry() \x7b",
  "  var entry = window.__previewEntry__;",
  "  if (typeof entry === 'function') return entry;",
  "  if (entry && typeof entry === 'object' && entry.$$typeof) return entry;",
  "  return null;",
  "\x7d",
  "",
  "function __compile(source) \x7b",
  "  try \x7b",
  "    return \x7b code: Babel.transform(source, \x7b presets: ['react'], filename: 'component.jsx' \x7d).code \x7d;",
  "  \x7d catch (error) \x7b",
  "    return \x7b error: error \x7d;",
  "  \x7d",
  "\x7d",
  "",
  "function __execute(code) \x7b",
  "  for (;;) \x7b",
  "    try \x7b",
  "      new Function(code)();",
  "      return;",
  "    \x7d catch (error) \x7b",
  "      if (!__trapUnresolved(error)) throw error;",
  "    \x7d",
  "  \x7d",
  "\x7d",
  "",
  "// ── Boundary and handshake ──",
  "",
  "function __createBoundary() \x7b",
  "  class PreviewErrorBoundary extends React.Component \x7b",
  "    constructor(props) \x7b",
  "      super(props);",
  "      this.state = \x7b error: null, retryCount: 0 \x7d;",
  "      this.retry = this.retry.bind(this);",
  "    \x7d",
  "",
  "    static getDerivedStateFromError(error) \x7b",
  "      return \x7b error: error \x7d;",
  "    \x7d",
  "",
  "    componentDidCatch(error, info) \x7b",
  "      if (__trapUnresolved(error)) \x7b",
  "        this.setState(\x7b error: null \x7d);",
  "        return;",
  "      \x7d",
  "      __postError(error, \x7b componentStack: info && info.componentStack \x7d);",
  "    \x7d",
  "",
  "    retry() \x7b",
  "      if (this.state.retryCount >= __PREVIEW__.retryLimit) return;",
  "      this.setState(function (state) \x7b",
  "        return \x7b error: null, retryCount: state.retryCount + 1 \x7d;",
  "      \x7d);",
  "    \x7d",
  "",
  "    render() \x7b",
  "      var error = this.state.error;",
  "      if (!error) return this.props.children;",
  "      var left = __PREVIEW__.retryLimit - this.state.retryCount;",
  "      return h('div', \x7b className: 'error-boundary', role: 'alert' \x7d,",
  "        h('div', \x7b className: 'error-title' \x7d, '⚠️ Component Error'),",
  "        h('div', \x7b className: 'error-message' \x7d, String(error.message || error)),",
  "        error.stack ? h('pre', \x7b className: 'error-stack' \x7d, String(error.stack)) : null,",
  "        h('button', \x7b className: 'retry-button', onClick: this.retry, disabled: left <= 0 \x7d,",
  "          left > 0 ? 'Retry (' + left + ' left)' : 'Retry limit reached')",
  "      );",
  "    \x7d",
  "  \x7d",
  "  return PreviewErrorBoundary;",
  "\x7d",
  "",
  "function ReadySignal(props) \x7b",
  "  React.useEffect(function () \x7b",
  "    if (__readySent) return;",
  "    __readySent = true;",
  "    var started = window.__previewStartedAt;",
  "    setTimeout(function () \x7b",
  "      __post(\x7b type: 'Ready', componentName: __PREVIEW__.componentName, timestamp: new Date().toISOString() \x7d);",
  "      var monitor = document.getElementById('renderTime');",
  "      if (monitor && started) monitor.textContent = (performance.now() - started).toFixed(1);",
  "    \x7d, __PREVIEW__.settleDelayMs);",
  "  \x7d, []);",
  "  return props.children;",
  "\x7d",
  "",
  "function __render() \x7b",
  "  var entry = __resolveEntry();",
  "  if (!entry) \x7b",
  "    var missing = new Error('No renderable component found. Export a component as default.');",
  "    entry = __errorEntry('Nothing to Render', missing);",
  "    __postError(missing);",
  "  \x7d",
  "  if (!__root) __root = ReactDOM.createRoot(document.getElementById('root'));",
  "  // Error displays never signal Ready.",
  "  var content = entry.__previewFailed ? h(entry) : h(ReadySignal, null, h(entry));",
  "  __root.render(h(__Boundary, null, content));",
  "\x7d",
  "",
  "// ── Global handlers ──",
  "",
  "window.addEventListener('error', function (event) \x7b",
  "  var error = event.error || event.message;",
  "  if (__trapUnresolved(error)) \x7b",
  "    event.preventDefault();",
  "    if (__Boundary) __render();",
  "    return;",
  "  \x7d",
  "  __postError(error, \x7b filename: event.filename, lineno: event.lineno, colno: event.colno \x7d);",
  "\x7d);",
  "",
  "window.addEventListener('unhandledrejection', function (event) \x7b",
  "  var reason = event.reason;",
  "  if (__trapUnresolved(reason)) \x7b",
  "    event.preventDefault();",
  "    return;",
  "  \x7d",
  "  __postError(reason instanceof Error ? reason : new Error(String(reason)));",
  "\x7d);",
  "",
  "// ── Boot ──",
  "",
  "function __boot() \x7b",
  "  var missing = ['React', 'ReactDOM', 'Babel'].filter(function (name) \x7b return !window[name]; \x7d);",
  "  if (missing.length) \x7b",
  "    var failure = new Error('Preview runtime failed to load: ' + missing.join(', '));",
  "    document.getElementById('root').textContent = failure.message;",
  "    __postError(failure);",
  "    return;",
  "  \x7d",
  "",
  "  __PREVIEW__.reactGlobals.forEach(function (name) \x7b",
  "    if (React[name] !== undefined && window[name] === undefined) window[name] = React[name];",
  "  \x7d);",
  "  __Boundary = __createBoundary();",
  "",
  "  var compiled = __compile(window.__PREVIEW_SOURCE__);",
  "  if (compiled.error) \x7b",
  "    var loc = compiled.error.loc || \x7b\x7d;",
  "    var where = loc.line ? 'Line ' + loc.line + ', column ' + (loc.column + 1) : null;",
  "    window.__previewEntry__ = __errorEntry('Syntax Error', compiled.error, where);",
  "    __postError(compiled.error, \x7b filename: 'component.jsx', lineno: loc.line, colno: loc.line ? loc.column + 1 : null \x7d);",
  "  \x7d else \x7b",
  "    try \x7b",
  "      __execute(compiled.code);",
  "    \x7d catch (error) \x7b",
  "      window.__previewEntry__ = __errorEntry('Runtime Error', error);",
  "      __postError(error);",
  "    \x7d",
  "  \x7d",
  "",
  "  window.__previewStartedAt = performance.now();",
  "  __render();",
  "\x7d",
  "",
  "window.addEventListener('load', __boot);",
  ""
]

/-- The script that every preview document runs. -/
def prelude : String :=
  "\n".intercalate preludeLines

end ComponentPreview.Sandbox
