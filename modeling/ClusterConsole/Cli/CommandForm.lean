import ClusterConsole.Form.Guard

/-! The form that a command has to fill in before it is sent. -/

namespace ClusterConsole.Cli

def commandFormId : FormId := ⟨"command-form"⟩

def maxCommandLength : Nat := 256

def commandForm (cluster command : String) : Form where
  id := commandFormId
  classes := [needsValidation]
  fields :=
    [{ name := "cluster", value := cluster, constraints := [.required] },
      { name := "command", value := command
        constraints := [.required, .maxLength maxCommandLength] }]

/-- The page's document with the form on it. -/
def commandDocument (cluster command : String) : Document :=
  { forms := [commandForm cluster command] }

end ClusterConsole.Cli
