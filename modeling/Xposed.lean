import Xposed.Membased.Wakeup
import Xposed.Membased.Refinement
import Xposed.Membased.Faithful
import Xposed.Startup
import Xposed.Binder.Denial
import Xposed.Binder.Cache
import Xposed.Safemode.Detection
import Xposed.Safemode.Sequence
import Xposed.Safemode.Batches
import Xposed.Dalvik.Hooking
import Xposed.Dalvik.Arguments
import Xposed.Safemode.Recovery
import Xposed.Fork.FdUtils
import Xposed.Lib.Lines
import Xposed.Logcat.Daemon
import Xposed.Logcat.Lossless
import Xposed.PropFile.Parse
import Xposed.PropFile.Grammar
import Xposed.AppProcess.StartMode
import Xposed.Fork.Restore
import Xposed.Fork.Failures
import Xposed.Fork.ForkNative
import Xposed.Membased.Chunks
import Xposed.Membased.Reassembly
import Xposed.Membased.Bounds
import Xposed.Membased.Arithmetic
import Xposed.Binder.Range
import Xposed.Binder.Unchanged
import Xposed.Binder.Failure
import Xposed.Resources.References
import Xposed.Safemode.Countdown
import Xposed.Safemode.Devices
import Xposed.Runtime
import Xposed.AppProcess.IgnoreCommand
import Xposed.Services.StartAll
import Xposed.Logcat.Start
import Xposed.Logcat.Rotation
import Xposed.Dalvik.Transparency
import Xposed.Jni.Session
import Xposed.Dalvik.ObjectHeap
import Xposed.AppProcess.OldMain
