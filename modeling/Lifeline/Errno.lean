/-! Error numbers of system calls, and their texts. -/
namespace Lifeline

/-- The number of a failure. -/
structure Errno where
  number : Int
  deriving DecidableEq, Repr

namespace Errno

def noSuchFile : Errno := ⟨2⟩
def argumentListTooLong : Errno := ⟨7⟩
def notADirectory : Errno := ⟨20⟩
def isADirectory : Errno := ⟨21⟩
def noSpaceLeft : Errno := ⟨28⟩
def nameTooLong : Errno := ⟨36⟩

/-- What the numbers in use say, in runs of numbers that follow each other. -/
def texts : List (Int × List String) :=
  [ (0,
      [ "Success", "Operation not permitted", "No such file or directory", "No such process",
        "Interrupted system call", "Input/output error", "No such device or address",
        "Argument list too long", "Exec format error", "Bad file descriptor",
        "No child processes", "Resource temporarily unavailable", "Cannot allocate memory",
        "Permission denied", "Bad address", "Block device required", "Device or resource busy",
        "File exists", "Invalid cross-device link", "No such device", "Not a directory",
        "Is a directory", "Invalid argument", "Too many open files in system",
        "Too many open files", "Inappropriate ioctl for device", "Text file busy",
        "File too large", "No space left on device", "Illegal seek", "Read-only file system",
        "Too many links", "Broken pipe", "Numerical argument out of domain",
        "Numerical result out of range", "Resource deadlock avoided", "File name too long",
        "No locks available", "Function not implemented", "Directory not empty",
        "Too many levels of symbolic links" ]),
    (42,
      [ "No message of desired type", "Identifier removed", "Channel number out of range",
        "Level 2 not synchronized", "Level 3 halted", "Level 3 reset", "Link number out of range",
        "Protocol driver not attached", "No CSI structure available", "Level 2 halted",
        "Invalid exchange", "Invalid request descriptor", "Exchange full", "No anode",
        "Invalid request code", "Invalid slot" ]),
    (59,
      [ "Bad font file format", "Device not a stream", "No data available", "Timer expired",
        "Out of streams resources", "Machine is not on the network", "Package not installed",
        "Object is remote", "Link has been severed", "Advertise error", "Srmount error",
        "Communication error on send", "Protocol error", "Multihop attempted",
        "RFS specific error", "Bad message", "Value too large for defined data type",
        "Name not unique on network", "File descriptor in bad state", "Remote address changed",
        "Can not access a needed shared library", "Accessing a corrupted shared library",
        ".lib section in a.out corrupted", "Attempting to link in too many shared libraries",
        "Cannot exec a shared library directly",
        "Invalid or incomplete multibyte or wide character",
        "Interrupted system call should be restarted", "Streams pipe error", "Too many users",
        "Socket operation on non-socket", "Destination address required", "Message too long",
        "Protocol wrong type for socket", "Protocol not available", "Protocol not supported",
        "Socket type not supported", "Operation not supported", "Protocol family not supported",
        "Address family not supported by protocol", "Address already in use",
        "Cannot assign requested address", "Network is down", "Network is unreachable",
        "Network dropped connection on reset", "Software caused connection abort",
        "Connection reset by peer", "No buffer space available",
        "Transport endpoint is already connected", "Transport endpoint is not connected",
        "Cannot send after transport endpoint shutdown", "Too many references: cannot splice",
        "Connection timed out", "Connection refused", "Host is down", "No route to host",
        "Operation already in progress", "Operation now in progress", "Stale file handle",
        "Structure needs cleaning", "Not a XENIX named type file",
        "No XENIX semaphores available", "Is a named type file", "Remote I/O error",
        "Disk quota exceeded", "No medium found", "Wrong medium type", "Operation canceled",
        "Required key not available", "Key has expired", "Key has been revoked",
        "Key was rejected by service", "Owner died", "State not recoverable",
        "Operation not possible due to RF-kill", "Memory page has hardware error" ]) ]

/-- What a number says, if it is in use. -/
def text? (number : Int) : Option String :=
  texts.findSome? fun run =>
    if run.1 ≤ number then run.2[(number - run.1).toNat]? else none

/-- What a failure says, and its number. -/
def message (e : Errno) : String :=
  let text := (text? e.number).getD s!"Unknown error {e.number}"
  s!"{text} (os error {e.number})"

end Errno

end Lifeline
