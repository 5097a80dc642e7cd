import Taskdown.Source.View
import Taskdown.Text.Quoted

/-!
# Views as they are shown

The description of a view names its span and quotes its text.
-/

namespace Taskdown

/-- A view, described. -/
def View.describe (v : View) : String :=
  "SourceView \x7b range: " ++ v.span.display ++ ", text: " ++ Text.quoted v.text ++ " \x7d"

end Taskdown
