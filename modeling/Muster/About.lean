/-! The name of the program and its version. -/

namespace Muster

def programName : String := "cloudctl"

def programVersion : String := "0.1.0"

end Muster
