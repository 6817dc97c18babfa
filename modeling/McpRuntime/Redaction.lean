import McpRuntime.Contracts

/-!
# Secrets

Credentials as values of their own type, and the names that mark a field as a
secret.
-/

namespace McpRuntime

/-- `REDACTED_TEXT`. -/
def redactedText : Text := lit "[REDACTED]"

/-- A credential, whose text is revealed only at an outbound boundary. -/
structure SecretValue where
  reveal : Text
  length_range : 4 ≤ reveal.length ∧ reveal.length ≤ 4096
  strip_eq : reveal = reveal.strip
  ne_redacted : reveal ≠ redactedText
  visible : (reveal.all fun c => 32 ≤ c.val && c.val ≠ 127) = true
  deriving DecidableEq

/-- `_SENSITIVE_EXACT`. -/
def sensitiveExact : List Text :=
  ["authorization", "proxyauthorization", "token", "password", "passwd", "credential",
    "credentials", "secret", "clientsecret", "privatekey", "apikey", "accesskey", "accesskeyid",
    "secretaccesskey", "signingkey", "encryptionkey", "accesstoken", "refreshtoken", "authtoken",
    "idtoken"].map lit

/-- `_SENSITIVE_SUFFIXES`. -/
def sensitiveSuffixes : List Text :=
  ["token", "password", "credential", "credentials", "secret", "privatekey", "apikey",
    "accesskeyid", "secretaccesskey", "signingkey", "encryptionkey", "accesstoken",
    "refreshtoken", "authtoken", "idtoken"].map lit

/-- The characters that `_KEY_PARTS` keeps: `[a-z0-9]`. -/
def isKeyPart (c : CodePoint) : Bool :=
  (48 ≤ c.val && c.val ≤ 57) || (97 ≤ c.val && c.val ≤ 122)

/-- `is_secret_key`. -/
def isSecretKey (unicode : UnicodeTable) (name : Text) : Bool :=
  let normalized := (name.casefold unicode).filter isKeyPart
  sensitiveExact.contains normalized || sensitiveSuffixes.any (·.isSuffixOf normalized)

end McpRuntime
