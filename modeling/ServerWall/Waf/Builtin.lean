import ServerWall.Waf.Rules

/-!
# The built-in rules

`serverwall-waf/src/inspection`: five families of rules, each with its identifier, its
description, the targets it is written for, its pattern, and its severity, score and
paranoia level, in the order in which the engine takes them.
-/

namespace ServerWall.Waf

/-! ## SQL injection -/

def sqlInjectionTargets : List RuleTarget := [.queryString, .requestBody, .requestUri, .cookies]

def sqlInjectionRules : List WafRule := [
  .regex 941100 "SQL Injection: UNION-based attack" sqlInjectionTargets r"(?i)(?:union\s+(?:all\s+)?select)" 1 5 1,
  .regex 941110 "SQL Injection: tautology (OR 1=1, OR true)" sqlInjectionTargets
    r"(?i)(?:'\s*(?:or|and)\s+['\d][\d\s]*=\s*['\d])" 1 5 1,
  .regex 941120 "SQL Injection: comment-based bypass (--)" sqlInjectionTargets r"(?i)(?:'\s*;\s*--\s*|'\s*--\s*)"
    2 4 1, .regex 941130 "SQL Injection: DROP/ALTER/TRUNCATE statements" sqlInjectionTargets
    r"(?i)(?:;\s*(?:drop|alter|truncate|create|insert|update|delete)\s+(?:table|database|schema|index))" 1 5 1,
  .regex 941140 "SQL Injection: EXEC/EXECUTE xp_cmdshell" sqlInjectionTargets
    r"(?i)(?:(?:exec|execute)\s+(?:xp_|sp_)|xp_cmdshell)" 1 5 1,
  .regex 941200 "SQL Injection: SLEEP/BENCHMARK/WAITFOR timing attacks" sqlInjectionTargets
    r"(?i)(?:sleep\s*\(\s*\d|benchmark\s*\(\s*\d|waitfor\s+delay\s+')" 2 4 2,
  .regex 941210 "SQL Injection: stacked queries" sqlInjectionTargets
    r"(?i)(?:;\s*(?:select|insert|update|delete|drop|alter|create)\s)" 2 4 2,
  .regex 941220 "SQL Injection: INFORMATION_SCHEMA/system tables" sqlInjectionTargets
    r"(?i)(?:information_schema|mysql\.user|sysobjects|syscolumns|pg_catalog)" 2 4 2,
  .regex 941230 "SQL Injection: LOAD_FILE/INTO OUTFILE" sqlInjectionTargets
    r"(?i)(?:load_file\s*\(|into\s+(?:out|dump)file)" 1 5 2,
  .regex 941240 "SQL Injection: hex-encoded values" sqlInjectionTargets
    "(?i)(?:0x[0-9a-f]\x7b8,\x7d|char\\s*\\(\\s*\\d+(?:\\s*,\\s*\\d+)+\\s*\\))" 3 3 2,
  .regex 941300 "SQL Injection: common SQL keywords in suspicious context" sqlInjectionTargets
    r"(?i)(?:'\s*(?:having|group\s+by|order\s+by|limit)\s)" 3 3 3,
  .regex 941310 "SQL Injection: SQL function calls" sqlInjectionTargets
    r"(?i)(?:(?:concat|substr|substring|ascii|hex|unhex|conv|cast)\s*\()" 4 2 3,
  .regex 941320 "SQL Injection: single-quote probing" sqlInjectionTargets r"(?:(?:^|[^\w])'\s*(?:$|[^\w']))" 4 2 4]

/-! ## Cross-site scripting -/

def xssTargets : List RuleTarget := [.queryString, .requestBody, .requestUri, .cookies]

def xssRules : List WafRule := [ .regex 942100 "XSS: <script> tag injection" xssTargets r"(?i)<\s*script[^>]*>" 1 5 1,
  .regex 942110 "XSS: javascript: protocol handler" xssTargets r"(?i)javascript\s*:" 1 5 1,
  .regex 942120 "XSS: on-event handler attributes" xssTargets
    r"(?i)\bon(?:error|load|click|mouse(?:over|out|down|up)|focus|blur|change|submit|key(?:down|up|press)|unload)\s*="
    1 5 1, .regex 942130 "XSS: <iframe>/<object>/<embed> injection" xssTargets
    r"(?i)<\s*(?:iframe|object|embed|applet|form|base)\b" 1 5 1,
  .regex 942140 "XSS: data: URI with script content" xssTargets r"(?i)data\s*:\s*(?:text/html|application/xhtml)" 2 4 1,
  .regex 942200 "XSS: SVG onload/animate attack" xssTargets r"(?i)<\s*svg[^>]*\bon(?:load|error)\s*=" 2 4 2,
  .regex 942210 "XSS: HTML entity encoding bypass" xssTargets
    r"(?i)(?:&#(?:x0*(?:6[1-9a-f]|7[0-9a])|0*(?:9[7-9]|1[01][0-9]|12[0-2]))\s*;?)" 3 3 2,
  .regex 942220 "XSS: expression() CSS function" xssTargets r"(?i)(?:expression|behavior)\s*\(" 2 4 2,
  .regex 942230 "XSS: vbscript: protocol handler" xssTargets r"(?i)vbscript\s*:" 1 5 2,
  .regex 942240 "XSS: <img> tag with event handler" xssTargets r"(?i)<\s*img[^>]+\bon(?:error|load)\s*=" 2 4 2,
  .regex 942300 "XSS: alert/confirm/prompt/eval function calls" xssTargets r"(?i)(?:alert|confirm|prompt|eval)\s*\("
    3 3 3, .regex 942310 "XSS: document.cookie/document.write access" xssTargets
    r"(?i)document\s*\.\s*(?:cookie|write|location|domain)" 3 3 3,
  .regex 942320 "XSS: innerHTML/outerHTML DOM manipulation" xssTargets
    r"(?i)\.(?:innerHTML|outerHTML|insertAdjacentHTML|write|writeln)\s*[=(]" 3 3 3]

/-! ## Path traversal -/

def pathTraversalTargets : List RuleTarget := [.requestUri, .path, .queryString, .requestBody]

def pathTraversalRules : List WafRule := [
  .regex 943100 "Path Traversal: ../ sequences" pathTraversalTargets r"(?:\.\./|\.\.\\)" 1 5 1,
  .regex 943110 "Path Traversal: /etc/passwd or /etc/shadow access" pathTraversalTargets
    r"(?i)/etc/(?:passwd|shadow|hosts|group|resolv\.conf|issue)" 1 5 1,
  .regex 943120 "Path Traversal: Windows drive letter access" pathTraversalTargets
    r"(?i)(?:(?:^|[^a-z])[a-z]:\\|\\\\[a-z0-9])" 2 4 1,
  .regex 943130 "Path Traversal: null byte injection" pathTraversalTargets r"(?:%00|\\x00|\\0)" 1 5 1,
  .regex 943140 "Path Traversal: /proc/self or /dev/ access" pathTraversalTargets
    r"(?:/proc/(?:self|version|cpuinfo|meminfo)|/dev/(?:null|zero|random|urandom|tcp|udp))" 1 5 1,
  .regex 943200 "Path Traversal: URL-encoded ../ sequences" pathTraversalTargets
    r"(?:%2e%2e[/\\]|\.%2e[/\\]|%2e\.[/\\]|%252e%252e)" 2 4 2,
  .regex 943210 "Path Traversal: Windows system file access" pathTraversalTargets
    r"(?i)(?:windows[\\/]system32|windows[\\/]win\.ini|boot\.ini|web\.config)" 2 4 2,
  .regex 943220 "Path Traversal: UTF-8 encoded traversal" pathTraversalTargets r"(?:%c0%ae|%c1%9c|%c0%af)" 1 5 2,
  .regex 943230 "Path Traversal: sensitive config file access" pathTraversalTargets
    r"(?i)(?:\.htaccess|\.htpasswd|\.env|\.git/|\.svn/|wp-config\.php|config\.yml|database\.yml)" 2 4 2,
  .regex 943300 "Path Traversal: backslash-encoded sequences" pathTraversalTargets r"(?:\\\\\.\\\\\.)" 3 3 3]

/-! ## Command injection -/

def commandInjectionTargets : List RuleTarget := [.queryString, .requestBody, .requestUri, .cookies]

def commandInjectionRules : List WafRule := [
  .regex 944100 "Command Injection: shell command chaining (;, &&, ||)" commandInjectionTargets
    r"(?:;\s*(?:cat|ls|id|whoami|uname|pwd|wget|curl|nc|ncat|bash|sh|python|perl|ruby|php)\b)" 1 5 1,
  .regex 944110 "Command Injection: backtick command substitution" commandInjectionTargets
    r"`[^`]*(?:cat|ls|id|whoami|uname|pwd|wget|curl|nc|bash|sh)[^`]*`" 1 5 1,
  .regex 944120 "Command Injection: $() command substitution" commandInjectionTargets
    r"\$\([^)]*(?:cat|ls|id|whoami|uname|pwd|wget|curl|nc|bash|sh)[^)]*\)" 1 5 1,
  .regex 944130 "Command Injection: pipe to shell commands" commandInjectionTargets
    r"(?:\|\s*(?:cat|ls|id|whoami|uname|bash|sh|python|perl|nc|ncat|wget|curl)\b)" 1 5 1,
  .regex 944140 "Command Injection: /bin/ or /usr/bin/ direct execution" commandInjectionTargets
    r"(?:/(?:usr/)?(?:s?bin|local/bin)/(?:cat|ls|id|whoami|uname|bash|sh|python|perl|nc|wget|curl|chmod|chown))"
    1 5 1, .regex 944200 "Command Injection: && or || chaining with any command" commandInjectionTargets
    r"(?:(?:&&|\|\|)\s*\w+\b)" 3 3 2, .regex 944210 "Command Injection: redirection operators" commandInjectionTargets
    r"(?:>\s*/(?:etc|tmp|var|dev)|>>\s*\S+|<\s*/(?:etc|proc|dev))" 2 4 2,
  .regex 944220 "Command Injection: environment variable injection" commandInjectionTargets
    "(?:\\$\\\x7b(?:IFS|PATH|SHELL|HOME|USER|HOSTNAME)\\\x7d)" 2 4 2,
  .regex 944230 "Command Injection: Powershell command patterns" commandInjectionTargets
    r"(?i)(?:powershell|invoke-(?:expression|webrequest|command)|new-object\s+system)" 1 5 2,
  .regex 944300 "Command Injection: semicolon followed by any word" commandInjectionTargets r"(?:;\s*\w+)" 4 2 3,
  .regex 944310 "Command Injection: line feeds used as command separators" commandInjectionTargets r"(?:%0[ad]|\\n|\\r)"
    4 2 3]

/-! ## Protocol attacks -/

def protocolAttackUriTargets : List RuleTarget := [.requestUri, .path, .queryString]

def protocolAttackHeaderTargets : List RuleTarget := [.requestHeaders]

def protocolAttackAllTargets : List RuleTarget := [.requestUri, .queryString, .requestHeaders, .requestBody]

def protocolAttackRules : List WafRule := [
  .regex 945100 "Protocol Attack: HTTP request smuggling (CL + TE)" protocolAttackHeaderTargets
    r"(?i)(?:transfer-encoding\s*:\s*chunked.*content-length|content-length.*transfer-encoding\s*:\s*chunked)" 1 5 1,
  .regex 945110 "Protocol Attack: CRLF injection in headers" protocolAttackAllTargets
    r"(?:%0[da]|\\r|\\n)(?:%0[da]|\\r|\\n|[\w-]+\s*:)" 1 5 1,
  .regex 945120 "Protocol Attack: HTTP response splitting" protocolAttackUriTargets
    r"(?i)(?:%0[da](?:%0[da])?(?:set-cookie|content-type|location|http/))" 1 5 1,
  .regex 945130 "Protocol Attack: HTTP header injection via newlines" protocolAttackAllTargets r"(?:\r\n|\n)[\w-]+\s*:"
    1 5 1,
  .regex 945140 "Protocol Attack: invalid HTTP method" [.requestUri] r"(?i)(?:^(?:connect|trace|track|debug)\s)" 2 4 1,
  .regex 945200 "Protocol Attack: Transfer-Encoding obfuscation" protocolAttackHeaderTargets
    r"(?i)(?:transfer-encoding\s*:\s*(?:chunked\s*,|,\s*chunked|identity|compress|deflate|gzip)\s*,)" 2 4 2,
  .regex 945210 "Protocol Attack: HTTP/0.9 request attempt" [.requestUri] r"(?:^GET\s+/[^\s]*\s*$)" 3 3 2,
  .regex 945220 "Protocol Attack: absolute URI in request line" protocolAttackUriTargets
    r"(?i)(?:^(?:get|post|put|delete|patch)\s+https?://)" 4 2 2,
  .regex 945300 "Protocol Attack: X-Forwarded-For header spoofing" protocolAttackHeaderTargets
    r"(?i)(?:x-forwarded-for\s*:\s*(?:127\.0\.0\.1|::1|0\.0\.0\.0|10\.\d|172\.(?:1[6-9]|2\d|3[01])\.|192\.168\.))"
    4 2 3, .regex 945310 "Protocol Attack: Host header injection" protocolAttackHeaderTargets
    r"(?i)(?:host\s*:\s*(?:localhost|127\.0\.0\.1|::1|0\.0\.0\.0)(?::\d+)?)" 4 2 3]

def allBuiltinRules : List WafRule :=
  sqlInjectionRules ++ xssRules ++ pathTraversalRules ++ commandInjectionRules ++ protocolAttackRules

/-- One rule after another. The pattern is given by its characters, which the kernel has at
hand, and not by the bytes of the literal. -/
theorem forall_cons_rule {check : UInt32 → Text → Bool} {id : UInt32} {description : Text}
    {targets : List RuleTarget} {pattern : List Char} {severity : UInt8} {score : UInt32}
    {level : UInt8} {rest : List WafRule} (h : check id pattern) (hr : ∀ rule ∈ rest, check rule.id rule.pattern) :
    ∀ rule ∈ WafRule.regex id description targets (String.ofList pattern).toList severity score
      level :: rest, check rule.id rule.pattern := by
  refine List.forall_mem_cons.mpr ⟨?_, hr⟩
  rwa [String.toList_ofList]

theorem builtin_transformations : ∀ rule ∈ allBuiltinRules, rule.transformations = [.lowercase, .urlDecode] := by
  decide

end ServerWall.Waf
