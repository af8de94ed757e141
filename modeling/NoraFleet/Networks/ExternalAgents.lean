import NoraFleet.Base.Json
import NoraFleet.Base.Urls

/-!
# External agents

A reference to a tool names an agent of the network, or it is the URL of an agent
elsewhere or of an MCP server. Which host and port such a URL names is left out.
-/

namespace Base

/-- `s.replace("/", new)`. -/
def Text.replaceSlashes (new : PyStr) (s : PyStr) : PyStr :=
  s.flatMap fun c => if c = 47 then new else [c]

end Base

namespace NoraFleet.Networks

open Base

namespace ExternalAgentParsing

variable (check : Urls.NetlocCheck)

/-- The agent name of a path: it has no leading slashes. -/
def agentNameOf (path : PyStr) : PyStr := path.dropWhile (· = 47)

/-- `parse_external_agent(agent_url)`: the name of the agent. -/
def parseExternalAgent (agentUrl : PyStr) : Except PyError (Option PyStr) :=
  if agentUrl = [] then .ok none
  else
    match Urls.urlparse check agentUrl with
    | .error e => .error e
    | .ok parseResult =>
        if parseResult.path.length ≤ 1 then .ok none
        else if parseResult.path.head? ≠ some 47 then .ok none
        else .ok (some (agentNameOf parseResult.path))

/-- `is_external_agent(agent_url)`. -/
def isExternalAgent (agentUrl : PyStr) : Except PyError Bool :=
  (parseExternalAgent check agentUrl).map Option.isSome

/-- `parse_result.hostname`, as far as its labels are concerned. -/
def hostname (netloc : PyStr) : PyStr :=
  let hostinfo := (netloc.reverse.takeWhile (· ≠ 64)).reverse
  if hostinfo.contains 91 then (Text.partition 93 (Text.partition 91 hostinfo).2).1
  else (Text.partition 58 hostinfo).1

/-- `is_mcp_tool(tool_ref)`. -/
def isMcpTool : Json → Bool
  | .obj _ => true
  | .str toolRef =>
      match Urls.urlparse check toolRef with
      | .error _ => false
      | .ok parsed =>
          let hostLabels := (Text.lowerAscii (hostname parsed.netloc)).splitOn 46
          let pathSegments := (Text.lowerAscii parsed.path).splitOn 47
          (parsed.scheme = str "http" || parsed.scheme = str "https") &&
            parsed.netloc ≠ [] && parsed.fragment = [] &&
            (hostLabels.contains (str "mcp") || pathSegments.contains (str "mcp"))
  | _ => false

/-- `get_safe_agent_name(agent_url)`. -/
def getSafeAgentName (agentUrl : PyStr) : Except PyError PyStr :=
  match parseExternalAgent check agentUrl with
  | .error e => .error e
  | .ok none => .ok agentUrl
  | .ok (some agentName) => .ok (str "__" ++ Text.replaceSlashes (str "__") agentName)

end ExternalAgentParsing

end NoraFleet.Networks
