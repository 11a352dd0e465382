/-! # The start page

The page of the dashboard: a log that begins with a hint, an editor, and fields for the identity and the
message. Its script sends messages and answers to the shell.
-/

namespace TreeShell.Web

/-- The text of the page under a hint. -/
def page (hint : String) : String :=
  "\n".intercalate
    [
      "<!DOCTYPE html>",
      "<html lang=\"en\">",
      "<head>",
      "  <meta charset=\"utf-8\">",
      "  <title>Shell Console</title>",
      "  <style>",
      "    body \x7b background:#111; color:#eee; font-family:monospace; margin:0; padding:20px; \x7d",
      "    #log \x7b white-space:pre-wrap; min-height:60vh; \x7d",
      "    #bar \x7b display:flex; gap:8px; margin-top:12px; \x7d",
      "    input, textarea, button \x7b background:#222; color:#eee; border:1px solid #444; padding:6px; font-family:monospace; \x7d",
      "    #message \x7b flex:1; \x7d",
      "    #editor \x7b display:none; width:100%; height:40vh; margin-top:12px; \x7d",
      "  </style>",
      "</head>",
      "<body>",
      "  <div id=\"log\">" ++ hint ++ "</div>",
      "  <textarea id=\"editor\"></textarea>",
      "  <div id=\"bar\">",
      "    <input id=\"identity\" placeholder=\"identity\">",
      "    <input id=\"message\" placeholder=\"/shell help\" autofocus>",
      "    <button id=\"send\">Send</button>",
      "    <button id=\"cancel\">Cancel</button>",
      "  </div>",
      "<script>",
      "  const log = document.getElementById(\"log\");",
      "  const editor = document.getElementById(\"editor\");",
      "  const message = document.getElementById(\"message\");",
      "  let pending = null;",
      "",
      "  function append(text) \x7b log.textContent += \"\\n\" + text; \x7d",
      "",
      "  async function post(url, body) \x7b",
      "    const res = await fetch(url, \x7b",
      "      method: \"POST\",",
      "      headers: \x7b\"Content-Type\": \"application/json\",",
      "                \"X-Shell-Identity\": document.getElementById(\"identity\").value\x7d,",
      "      body: JSON.stringify(body),",
      "    \x7d);",
      "    return res.json();",
      "  \x7d",
      "",
      "  function show(result) \x7b",
      "    pending = null;",
      "    editor.style.display = \"none\";",
      "    message.type = \"text\";",
      "    if (result.status === \"awaiting_input\") \x7b",
      "      pending = result.prompt;",
      "      append(pending.label);",
      "      if (pending.kind === \"edit\") \x7b",
      "        editor.value = pending.initial;",
      "        editor.style.display = \"block\";",
      "      \x7d else if (pending.kind === \"secret\") \x7b",
      "        message.type = \"password\";",
      "      \x7d",
      "    \x7d else \x7b",
      "      append(result.text || result.detail || \"\");",
      "    \x7d",
      "  \x7d",
      "",
      "  document.getElementById(\"send\").onclick = async () => \x7b",
      "    if (pending) \x7b",
      "      const answer = pending.kind === \"edit\" ? editor.value : message.value;",
      "      message.value = \"\";",
      "      show(await post(\"/api/shell/respond\", \x7banswer\x7d));",
      "      return;",
      "    \x7d",
      "    const text = message.value;",
      "    message.value = \"\";",
      "    append(\"> \" + text);",
      "    let sudo_password = null;",
      "    if (/(^|\\|)\\s*sudo\\s/.test(text.replace(/^\\/shell\\s*/, \"\"))) \x7b",
      "      sudo_password = prompt(\"Sudo password\");",
      "    \x7d",
      "    show(await post(\"/api/shell\", \x7bmessage: text, sudo_password\x7d));",
      "  \x7d;",
      "",
      "  document.getElementById(\"cancel\").onclick = async () => \x7b",
      "    if (pending) show(await post(\"/api/shell/respond\", \x7banswer: null\x7d));",
      "  \x7d;",
      "</script>",
      "</body>",
      "</html>"]

end TreeShell.Web
