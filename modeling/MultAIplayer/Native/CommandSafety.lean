import MultAIplayer.Lib.Text

/-!
# The review of command texts

`commandReviewRisk` looks for the names of credential files and of network tools in a command text.
It decides which dialog is shown and whether a repeated run may go without one.
-/

namespace MultAIplayer.Native

def networkTools : List String :=
  ["curl", "wget", "ssh", "scp", "sftp", "ftp", "nc", "ncat", "netcat", "telnet", "ping", "dig",
    "nslookup", "host", "gh", "npx", "docker", "podman", "kubectl", "aws", "gcloud", "az"]

def credentialMarkers : List String :=
  [".env", ".npmrc", ".pypirc", ".netrc", ".git-credentials", ".gitconfig", "id_rsa", "id_ed25519",
    ".ssh/", ".aws/credentials", ".config/gcloud/", ".kube/config", "credentials.json",
    "service-account", "keychain", "login.keychain", "secrets."]

inductive CommandReviewRisk where
  | credentialAccess
  | networkAccess
  deriving DecidableEq

/-- Two words that name an operation of a tool on the network. -/
def networkSubcommand (tool action : String) : Bool :=
  match tool with
  | "git" => action ∈ ["clone", "fetch", "pull", "push", "ls-remote", "submodule"]
  | "npm" | "pnpm" | "yarn" =>
    action ∈ ["install", "add", "publish", "login", "whoami", "audit", "update"]
  | "pip" | "pip3" => action ∈ ["install", "download", "index"]
  | "cargo" => action ∈ ["install", "publish", "search", "login"]
  | "go" => action ∈ ["get", "install"]
  | _ => false

/-- `to_ascii_lowercase`, with slashes for backslashes. -/
def normalizedCommand (command : String) : List Char :=
  command.toList.map fun c ↦ if c.toLower = '\\' then '/' else c.toLower

/-- The words of a command text: letters, digits, underscores, hyphens and dots. -/
def commandWords (normalized : List Char) : List String :=
  let separates c := !(c.isAlphanum || c = '_' || c = '-' || c = '.')
  ((normalized.splitOnP separates).filter fun word ↦ !word.isEmpty).map String.ofList

def commandReviewRisk (command : String) : Option CommandReviewRisk :=
  let normalized := normalizedCommand command
  if credentialMarkers.any fun marker ↦ normalized.tails.any marker.toList.isPrefixOf then
    some .credentialAccess
  else
    let words := commandWords normalized
    if words.any networkTools.contains ||
        (words.zip words.tail).any fun pair ↦ networkSubcommand pair.1 pair.2 then
      some .networkAccess
    else none

example : commandReviewRisk "cat .env" = some .credentialAccess := by decide

example : commandReviewRisk "git -C . push && git push" = some .networkAccess := by decide

end MultAIplayer.Native
