import Switchboard.Config

/-!
What a node prints when it starts.
-/

namespace Switchboard.Banner

def version : String := "0.1.0"

def styled (style text : String) : String := "\x1b[" ++ style ++ "m" ++ text ++ "\x1b[0m"

def accent : String := "1;36"

def faint : String := "2"

def good : String := "32"

/-- A label and what it stands for, in columns. -/
def row (label value : String) : String :=
  "  " ++ styled faint label ++ .ofList (List.replicate (13 - label.length) ' ') ++ value

def roleRows (config : Config) : List String :=
  match config.role with
  | .logic => [row "link buffer" (toString config.linkBuffer)]
  | .gateway g =>
    [row "prefix" g.nameStem] ++ g.linkTargets.map (row "link") ++
      [row "tokens" (toString g.accessTokens.length)]

def heading (config : Config) : List String :=
  ["", "  " ++ styled accent "chatlink" ++ " " ++ styled faint ("v" ++ version), "",
    row "mode" config.role.name, row "port" (toString config.port)] ++ roleRows config ++ [""]

def listening (port : String) : List String :=
  ["  " ++ styled good ("→ listening on 0.0.0.0:" ++ port), ""]

def lines (config : Config) (port : String) : List String := heading config ++ listening port

end Switchboard.Banner
