import CommandLink.Text.Numeral
/-!
# Errors of the operating system

An input/output error has a kind, on which decisions rest, and a text. Errors of the system itself
carry its number and its wording.

Results:
* `Errno.error_kind`: the error of a system number is of that number's kind.
* `Errno.ofNumber?_number`: a system number stands for one error.
-/
namespace CommandLink

inductive IoKind where
  | notFound
  | permissionDenied
  | connectionRefused
  | connectionReset
  | connectionAborted
  | hostUnreachable
  | networkUnreachable
  | notConnected
  | addressInUse
  | addressNotAvailable
  | networkDown
  | brokenPipe
  | alreadyExists
  | wouldBlock
  | notADirectory
  | isADirectory
  | directoryNotEmpty
  | readOnlyFilesystem
  | filesystemLoop
  | staleNetworkFileHandle
  | invalidInput
  | invalidData
  | timedOut
  | writeZero
  | storageFull
  | notSeekable
  | quotaExceeded
  | fileTooLarge
  | resourceBusy
  | executableFileBusy
  | deadlock
  | crossesDevices
  | tooManyLinks
  | invalidFilename
  | argumentListTooLong
  | interrupted
  | unsupported
  | unexpectedEof
  | outOfMemory
  | inProgress
  | other
  /-- A system error that has no kind of its own. -/
  | uncategorized
  deriving Repr, BEq, DecidableEq

structure IoError where
  kind : IoKind
  text : String
  deriving Repr, BEq, DecidableEq

/-- The system errors that can come up here. -/
inductive Errno where
  | notPermitted
  | noEntry
  | noProcess
  | noDevice
  | badAddressSpace
  | badExecutable
  | accessDenied
  | alreadyThere
  | notDirectory
  | isDirectory
  | invalidArgument
  | brokenPipe
  | nameTooLong
  | notEmpty
  | loop
  | addressInUse
  | addressNotAvailable
  | networkUnreachable
  | connectionReset
  | connectionRefused
  deriving Repr, BEq, DecidableEq

namespace Errno

def number : Errno → Nat
  | notPermitted => 1
  | noEntry => 2
  | noProcess => 3
  | noDevice => 6
  | badAddressSpace => 7
  | badExecutable => 8
  | accessDenied => 13
  | alreadyThere => 17
  | notDirectory => 20
  | isDirectory => 21
  | invalidArgument => 22
  | brokenPipe => 32
  | nameTooLong => 36
  | notEmpty => 39
  | loop => 40
  | addressInUse => 98
  | addressNotAvailable => 99
  | networkUnreachable => 101
  | connectionReset => 104
  | connectionRefused => 111

def kind : Errno → IoKind
  | notPermitted => .permissionDenied
  | noEntry => .notFound
  | noProcess => .uncategorized
  | noDevice => .uncategorized
  | badAddressSpace => .argumentListTooLong
  | badExecutable => .uncategorized
  | accessDenied => .permissionDenied
  | alreadyThere => .alreadyExists
  | notDirectory => .notADirectory
  | isDirectory => .isADirectory
  | invalidArgument => .invalidInput
  | brokenPipe => .brokenPipe
  | nameTooLong => .invalidFilename
  | notEmpty => .directoryNotEmpty
  | loop => .filesystemLoop
  | addressInUse => .addressInUse
  | addressNotAvailable => .addressNotAvailable
  | networkUnreachable => .networkUnreachable
  | connectionReset => .connectionReset
  | connectionRefused => .connectionRefused

def wording : Errno → String
  | notPermitted => "Operation not permitted"
  | noEntry => "No such file or directory"
  | noProcess => "No such process"
  | noDevice => "No such device or address"
  | badAddressSpace => "Argument list too long"
  | badExecutable => "Exec format error"
  | accessDenied => "Permission denied"
  | alreadyThere => "File exists"
  | notDirectory => "Not a directory"
  | isDirectory => "Is a directory"
  | invalidArgument => "Invalid argument"
  | brokenPipe => "Broken pipe"
  | nameTooLong => "File name too long"
  | notEmpty => "Directory not empty"
  | loop => "Too many levels of symbolic links"
  | addressInUse => "Address already in use"
  | addressNotAvailable => "Cannot assign requested address"
  | networkUnreachable => "Network is unreachable"
  | connectionReset => "Connection reset by peer"
  | connectionRefused => "Connection refused"

def error (e : Errno) : IoError :=
  ⟨e.kind, e.wording ++ " (os error " ++ Text.decimal e.number ++ ")"⟩

def all : List Errno :=
  [notPermitted, noEntry, noProcess, noDevice, badAddressSpace, badExecutable, accessDenied,
    alreadyThere, notDirectory, isDirectory, invalidArgument, brokenPipe, nameTooLong, notEmpty,
    loop, addressInUse, addressNotAvailable, networkUnreachable, connectionReset,
    connectionRefused]

/-- The error that a system number stands for. -/
def ofNumber? (n : Nat) : Option Errno :=
  all.find? fun e => e.number == n

theorem ofNumber?_number (e : Errno) : ofNumber? e.number = some e := by
  cases e <;> rfl

theorem error_kind (e : Errno) : e.error.kind = e.kind := rfl

end Errno
end CommandLink
