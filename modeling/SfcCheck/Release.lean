/-!
# The program

Its name and version, as the command line and the language server are told.
-/

namespace SfcCheck

def programName : String := "vue-type-check"

def programVersion : String := "1.3.0"

end SfcCheck
