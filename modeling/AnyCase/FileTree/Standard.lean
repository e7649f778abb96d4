import AnyCase.FileTree.Change

/-!
# `FileTree.Standard` — the files that every system has

The tree has the usual directories, the programs of a small system and some well-known files. Where the
programs are is known under a second, older name: `/bin` is `/usr/bin`.
-/

namespace AnyCase.FileTree

/-- The place of an absolute path. -/
def placeOf (path : String) : List String := (parts path).filter (fun part => !stays part)

/-- The directories. -/
def standardDirectories : List String :=
  ["/boot", "/dev", "/dev/pts", "/dev/shm", "/etc", "/home", "/media", "/mnt", "/opt", "/root", "/run",
    "/srv", "/tmp", "/usr", "/usr/bin", "/usr/games", "/usr/include", "/usr/lib", "/usr/lib64",
    "/usr/local", "/usr/local/bin", "/usr/local/lib", "/usr/local/sbin", "/usr/local/share",
    "/usr/sbin", "/usr/share", "/usr/src", "/var", "/var/cache", "/var/lib", "/var/log", "/var/tmp"]

/-- The directories in which the system shows itself: no file is kept there. -/
def standardSealed : List (String × FileFault) :=
  [("/proc", .notFound), ("/proc/1", .notFound), ("/proc/net", .notFound), ("/proc/self", .notFound),
    ("/proc/sys", .notFound), ("/sys", .notAllowed), ("/sys/class", .notAllowed),
    ("/sys/kernel", .notAllowed)]

/-- Other names of directories. -/
def standardLinks : List (String × String) :=
  [("/bin", "/usr/bin"), ("/lib", "/usr/lib"), ("/lib64", "/usr/lib64"), ("/sbin", "/usr/sbin"),
    ("/var/run", "/run")]

/-- The names of the programs. -/
def standardPrograms : List String :=
  ["awk", "base64", "basename", "bash", "cat", "chmod", "chown", "cmp", "comm", "cp", "cut", "date",
    "dd", "df", "diff", "dirname", "du", "echo", "env", "expr", "false", "find", "fold", "grep",
    "head", "id", "join", "kill", "ln", "ls", "md5sum", "mkdir", "mkfifo", "mktemp", "mv", "nice",
    "nl", "nohup", "od", "paste", "pr", "printenv", "printf", "ps", "pwd", "readlink", "realpath",
    "rm", "rmdir", "sed", "seq", "sh", "sha256sum", "sleep", "sort", "split", "stat", "stty", "sync",
    "tac", "tail", "tar", "tee", "test", "timeout", "touch", "tr", "true", "truncate", "tty",
    "uname", "uniq", "wc", "which", "whoami", "xargs", "yes"]

/-- The files of text. None holds a state, so only their first line is kept. -/
def standardTexts : List (String × String) :=
  [("/dev/full", ""), ("/dev/null", ""), ("/dev/random", ""), ("/dev/stderr", ""), ("/dev/stdin", ""),
    ("/dev/stdout", ""), ("/dev/tty", ""), ("/dev/urandom", ""), ("/dev/zero", ""),
    ("/etc/fstab", "# UNCONFIGURED FSTAB FOR BASE SYSTEM\n"), ("/etc/group", "root:x:0:\n"),
    ("/etc/hostname", "localhost\n"), ("/etc/hosts", "127.0.0.1\tlocalhost\n"),
    ("/etc/os-release", "NAME=GNU/Linux\n"), ("/etc/passwd", "root:x:0:0:root:/root:/bin/bash\n"),
    ("/etc/profile", "# /etc/profile\n"), ("/etc/resolv.conf", "nameserver 127.0.0.1\n"),
    ("/etc/shadow", "root:*:0:0:99999:7:::\n"), ("/proc/cmdline", "quiet\n"),
    ("/proc/cpuinfo", "processor\t: 0\n"), ("/proc/loadavg", "0.00 0.00 0.00 1/1 1\n"),
    ("/proc/meminfo", "MemTotal: 0 kB\n"), ("/proc/mounts", "none / none rw 0 0\n"),
    ("/proc/self/cmdline", "case-search"), ("/proc/self/status", "Name:\tcase-search\n"),
    ("/proc/stat", "cpu 0\n"), ("/proc/uptime", "0.00 0.00\n"), ("/proc/version", "Linux\n")]

/-- The files that every system has. -/
def standard : FileTree where
  nodes :=
    (["work"], .directory) ::
      standardDirectories.map (fun path => (placeOf path, .directory))
      ++ standardSealed.map (fun e => (placeOf e.1, .sealedDirectory e.2))
      ++ standardLinks.map (fun e => (placeOf e.1, .link (placeOf e.2)))
      ++ standardPrograms.map (fun name => (["usr", "bin", name], .program))
      ++ standardTexts.map (fun e => (placeOf e.1, .text e.2))
  workingDirectory := ["work"]

end AnyCase.FileTree
