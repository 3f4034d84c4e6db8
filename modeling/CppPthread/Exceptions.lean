import CppPthread.Posix.Time

set_option autoImplicit false

/-! # The exceptions of the library

`pthread_exception` carries a message and the error number of the pthread call that failed;
the classes derived from it only differ in their name and in the default of that number, so
they are one structure with a tag. The exceptions of `sync_queue` carry a message and do not
derive from it.
-/

namespace CppPthread

/-- The class of an exception that derives from `pthread_exception`. -/
inductive ExceptionClass where
  | pthreadException
  | conditionVariableException
  | threadException
  deriving DecidableEq

/-- `pthread_exception` and the classes derived from it. -/
structure PthreadException where
  cls : ExceptionClass
  message : String
  errorNumber : Int
  deriving DecidableEq

/-- `condition_variable_exception`. -/
def conditionVariableException (message : String) (pthreadErrno : Int) : PthreadException :=
  ⟨.conditionVariableException, message, pthreadErrno⟩

/-- `thread_exception`. -/
def threadException (message : String) (pthreadError : Int) : PthreadException :=
  ⟨.threadException, message, pthreadError⟩

/-- The exceptions thrown by `sync_queue`. -/
inductive QueueException where
  | queueException (message : String)
  | queueFull (message : String)
  | queueTimeout (message : String)
  deriving DecidableEq

end CppPthread
